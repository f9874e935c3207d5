import LuaSymbols.FileSystem
import LuaSymbols.Text.Utf8

namespace LuaSymbols.Uri

def isPlain (c : Char) : Bool :=
  c.isAlphanum || c == '_' || c == '.' || c == '-' || c == '~' || c == '/'

def hexDigit (n : Nat) : Char := (Nat.toDigits 16 n).headD '0' |>.toUpper

/-- A byte of a path: itself, or a percent sign and its number. -/
def encodeByte (b : UInt8) : List Char :=
  let c := Char.ofNat b.toNat
  if b < 0x80 && isPlain c then [c]
  else ['%', hexDigit (b.toNat / 16), hexDigit (b.toNat % 16)]

def encode (cs : List Char) : List Char := (Utf8.encode cs).flatMap encodeByte

end LuaSymbols.Uri

namespace LuaSymbols

def FilePath.uri (p : FilePath) : String := "file://" ++ String.ofList (Uri.encode p.text.toList)

end LuaSymbols
