import LuaSymbols.Text.Case.Lower
import LuaSymbols.Text.Case.Upper

namespace LuaSymbols

def upperCase (s : String) : String := String.ofList (Case.upper s.toList)

def lowerCase (s : String) : String := String.ofList (Case.lower s.toList)

end LuaSymbols
