import LuaSymbols.Failure
import LuaSymbols.ParseTree
import LuaSymbols.Text.CodePoint
import LuaSymbols.Text.Utf8

namespace LuaSymbols

structure Source where
  bytes : Array UInt8

namespace Source

def ofChars (cs : List Char) : Source := ⟨(Utf8.encode cs).toArray⟩

/-- The characters between two byte offsets. A character that an offset cuts through is replaced. -/
def slice (src : Source) (start stop : Nat) : List Char :=
  Utf8.decode (src.bytes.extract start stop).toList

def chars (src : Source) (span : Span) : List Char :=
  src.slice span.start.offset span.stop.offset

def text (src : Source) (span : Span) : String := String.ofList (src.chars span)

/-- A byte place as a position: the column is the number of characters between the start of the row
and the place. The start of the row stops at zero: a column greater than the offset, which no place in
a text has, does not count back from the end of the bytes. -/
def position (src : Source) (p : Point) : Position :=
  ⟨p.row, (src.slice (p.offset - p.column) p.offset).length⟩

/-- The range of a span. Both ends are byte places on their own, so a span of a careless parser can
end before it starts. -/
def range (src : Source) (span : Span) : Except Fault Range :=
  Range.between (src.position span.start) (src.position span.stop)

end Source

end LuaSymbols
