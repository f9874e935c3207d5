import LuaSymbols.Notice
import LuaSymbols.Text.Blank
import LuaSymbols.Text.Case

namespace LuaSymbols.Markup

def opensTag (c : Char) : Bool := ('a' ≤ c && c ≤ 'z') || c == '#' || c == '/' || c == '@'

/-- The inside of the tag that a text starts with. A bracket before the closing one makes it none. -/
def tagAt? : List Char → Option (List Char)
  | '[' :: c :: rest =>
    let body := rest.takeWhile fun d => d != '[' && d != ']'
    if opensTag c && (rest.drop body.length).head? == some ']' then some (c :: body) else none
  | _ => none

/-- The name of a style, before its parameters. Case and outer white space do not count. -/
def styleName (cs : List Char) : String :=
  lowerCase (String.ofList (trimBlank (cs.takeWhile (· != '='))))

/-- The styles that are open after a tag, innermost first. A closing tag without a name closes the
innermost style, one with a name the innermost of that name. -/
def turn? (styles : List String) : List Char → Option (List String)
  | '/' :: name =>
    let style := styleName name
    if style.isEmpty then styles.tail?
    else if styles.contains style then some (styles.erase style)
    else none
  | name => some (styleName name :: styles)

def backslashes (n : Nat) : List Char := List.replicate n '\\'

/-- A text without its tags, if every closing tag closes something. `skip` characters belong to a tag
that has been read, and `escapes` backslashes have been read and not shown. Before a tag two of them
show one, and a last one makes the tag a text. -/
def render (skip escapes : Nat) (styles : List String) : List Char → Option (List Char)
  | [] => some (backslashes escapes)
  | c :: rest =>
    if 0 < skip then render (skip - 1) 0 styles rest
    else if c = '\\' then render 0 (escapes + 1) styles rest
    else
      match tagAt? (c :: rest) with
      | some tag =>
        if escapes % 2 = 1 then
          (render (tag.length + 1) 0 styles rest).map
            (backslashes (escapes / 2) ++ '[' :: tag ++ ']' :: ·)
        else do
          let styles ← turn? styles tag
          (render (tag.length + 1) 0 styles rest).map (backslashes (escapes / 2) ++ ·)
      | none =>
        -- A bracket that starts no tag loses the last backslash before it and no other.
        let before := if c = '[' then escapes - 1 else escapes
        (render 0 0 styles rest).map (backslashes before ++ c :: ·)

def console : Console := fun markup => (render 0 0 [] markup.toList).map String.ofList

end LuaSymbols.Markup
