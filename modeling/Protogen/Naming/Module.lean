import Protogen.Naming.Case

set_option autoImplicit false

namespace Protogen.Naming

open Text (splitAt stripEnd?)

def stem (file : String) : String :=
  ((stripEnd? file.toList ".proto".toList).map String.ofList).getD file

def segments (path : String) : List String :=
  ((splitAt '/' path.toList).filter (!·.isEmpty)).map String.ofList

private def isIdentChar (c : Char) : Bool :=
  c.isAlphanum

/-- The module of one part of a path. Characters other than ASCII letters and digits become
underscores, and a digit in front takes one. -/
def moduleIdent (segment : String) : String :=
  let cs := segment.toList.map fun c => if isIdentChar c then c else '_'
  let cs := if (cs.head?.map Char.isDigit).getD false then '_' :: cs else cs
  escapeKeyword (String.ofList cs)

def joined (separator : String) (names : List String) : String :=
  String.intercalate separator names

def modulePath (file : String) : String :=
  joined "::" ((segments (stem file)).map moduleIdent)

def outputFile (file : String) : String :=
  stem file ++ ".rs"

end Protogen.Naming
