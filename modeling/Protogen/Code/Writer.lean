import Protogen.Code.Line

set_option autoImplicit false

namespace Protogen.Code

-- The lines of a text. A line may end with a carriage return in front of the newline.
def splitLines (cs : List Char) : List (List Char) :=
  match cs with
  | [] => []
  | c :: cs =>
    if c = '\n' then [] :: splitLines cs
    else if c = '\r' ∧ cs.head? = some '\n' then
      splitLines cs
    else
      match cs, splitLines cs with
      | [], _ => [[c]]
      | _, l :: ls => (c :: l) :: ls
      | _, [] => [[c]]

/-- One call of a writer. -/
inductive Step where
  | line (l : Line)
  | blank
  -- Writes a header and a brace, and indents what follows.
  | opening (header : Line)
  /-- Indents what follows a line that has no brace at its end. -/
  | indent
  -- Takes the indentation back and writes what closes a block, whether one is open or not.
  | closing (closer : String)
  deriving DecidableEq

def Step.close : Step :=
  .closing "\x7d"

def fragmentSteps (text : String) : List Step :=
  (splitLines text.toList).map fun cs => .line (String.ofList cs)

/-- What has been written, the last line first, and how many blocks are open. -/
structure Writer where
  lines : List String := []
  depth : Nat := 0

namespace Writer

def empty : Writer := {}

-- Writes a line. An empty one is not indented.
def line (w : Writer) (text : String) : Writer :=
  let indent := String.ofList (List.replicate (4 * w.depth) ' ')
  { w with lines := (if text.isEmpty then "" else indent ++ text) :: w.lines }

def step (w : Writer) : Step → Writer
  | .line l => w.line l.render
  | .blank => w.line ""
  | .opening header =>
    let w := w.line (header.render ++ " \x7b")
    { w with depth := w.depth + 1 }
  | .indent => { w with depth := w.depth + 1 }
  | .closing closer => { w with depth := w.depth - 1 }.line closer

def run (w : Writer) (steps : List Step) : Writer :=
  steps.foldl step w

def fragment (w : Writer) (text : String) : Writer :=
  w.run (fragmentSteps text)

def isEmpty (w : Writer) : Bool :=
  w.lines.isEmpty

-- The lines, with newlines between them.
def joined (w : Writer) : String :=
  String.intercalate "\n" w.lines.reverse

-- The lines, with a newline after the last; also if there is none.
def text (w : Writer) : String :=
  w.joined ++ "\n"

end Writer

/-- Code in blocks. -/
inductive Block where
  | line (l : Line)
  | blank
  -- A block under a header and a brace.
  | block (header : Line) (body : List Block) (closer : String)
  /-- A block under a line that has no brace at its end. -/
  | hang (opener : Line) (body : List Block) (closer : String)

mutual

def Block.steps : Block → List Step
  | .line l => [.line l]
  | .blank => [.blank]
  | .block header body closer => .opening header :: stepsOf body ++ [.closing closer]
  | .hang opener body closer => .line opener :: .indent :: stepsOf body ++ [.closing closer]

def stepsOf : List Block → List Step
  | [] => []
  | b :: bs => b.steps ++ stepsOf bs

end

mutual

-- The lines of a block, without their indentation.
def Block.lines : Block → List Line
  | .line l => [l]
  | .blank => []
  | .block header body _ => header :: linesOf body
  | .hang opener body _ => opener :: linesOf body

def linesOf : List Block → List Line
  | [] => []
  | b :: bs => b.lines ++ linesOf bs

end

def Step.helpers : Step → List Helper
  | .line l | .opening l => l.helpers
  | .blank | .indent | .closing _ => []

def marksOf (steps : List Step) : List Helper :=
  steps.flatMap Step.helpers

def textOf (code : List Block) : String :=
  (Writer.empty.run (stepsOf code)).text

def helpersOf (code : List Block) : List Helper :=
  (linesOf code).flatMap Line.helpers

def block (header : Line) (body : List Block) : Block :=
  .block header body "\x7d"

end Protogen.Code
