import LuaSymbols.Failure
import LuaSymbols.Text.Quoted

namespace LuaSymbols

inductive Notice where
  | cannotParse (identity : String) (failure : ParseFailure)
  | noContent (identity reason : String)
  | rebuilt (identity : String) (symbols : Nat)
  | evicted (identity : String)
  | resolved (name : String) (locations : Nat)
  | found (files : Nat)
  | skipping (path reason : String)
deriving DecidableEq, Repr

/-- The line that is handed to the console. What the notice is about stands in it as it is, so a name
or a message that looks like markup is taken for markup. -/
def Notice.markup : Notice → String
  | .cannotParse identity failure =>
    s!"[yellow]Warning[/yellow]: Cannot parse {identity}: {failure.text}"
  | .noContent identity reason => s!"[yellow]Warning[/yellow]: No content for {identity}: {reason}"
  | .rebuilt identity symbols => s!"[dim]rebuilt {identity} ({symbols} symbols)[/dim]"
  | .evicted identity => s!"[dim]evicted {identity}[/dim]"
  | .resolved name locations => s!"[dim]{quoted name} resolved to {locations} location(s)[/dim]"
  | .found files => s!"[green]Scanner[/green] found [bold]{files}[/bold] Lua files"
  | .skipping path reason => s!"[yellow]Warning[/yellow]: Skipping {path}: {reason}"

/-- Shows lines of markup. The answer is the line as it is shown, or none if the console refuses it:
then whoever has written the line is stopped. -/
abbrev Console := String → Option String

namespace Console

def shows (c : Console) (n : Notice) : Bool := (c n.markup).isSome

def lines (c : Console) (notices : List Notice) : List String := notices.filterMap fun n => c n.markup

end Console

end LuaSymbols
