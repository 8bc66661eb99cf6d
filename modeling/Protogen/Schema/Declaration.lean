import Protogen.Schema.Basic

set_option autoImplicit false

namespace Protogen.Schema

inductive Declaration where
  | enum (e : Enum)
  | message (m : Message)

structure Declared where
  fullName : String
  symbol : String
  declaration : Declaration

-- What the names of a level begin with. The top level has no symbol.
structure Scope where
  fullName : String
  symbol : Option String

namespace Scope

def fullNameOf (s : Scope) (name : String) : String :=
  s.fullName ++ "." ++ name

def symbolOf (s : Scope) (name : String) : String :=
  match s.symbol with
  | some outer => outer ++ "_" ++ name
  | none => name

def inside (s : Scope) (name : String) : Scope :=
  ⟨s.fullNameOf name, some (s.symbolOf name)⟩

def declareEnum (s : Scope) (e : Enum) : Declared :=
  ⟨s.fullNameOf e.name, s.symbolOf e.name, .enum e⟩

def declareMessage (s : Scope) (m : Message) : Declared :=
  ⟨s.fullNameOf m.name, s.symbolOf m.name, .message m⟩

end Scope

def File.topLevel (f : File) : Scope :=
  ⟨f.scope, none⟩

-- A level whose declarations have been given in part: those that are left.
structure Level where
  scope : Scope
  enums : List Enum
  messages : List Message

def File.level (f : File) : Level :=
  ⟨f.topLevel, f.enums, f.messages⟩

-- The level of the declarations inside a message.
def Scope.levelOf (s : Scope) (m : Message) : Level :=
  ⟨s.inside m.name, m.enums, m.messages⟩

mutual

def Message.count : Message → Nat
  | ⟨_, _, _, messages, enums, _⟩ => 1 + enums.length + Message.countAll messages

def Message.countAll : List Message → Nat
  | [] => 0
  | m :: ms => m.count + Message.countAll ms

end

-- The steps that a walk over a stack of levels takes: one for each declaration and one to leave each level.
def walkMeasure : List Level → Nat
  | [] => 0
  | l :: ls => 1 + l.enums.length + 2 * Message.countAll l.messages + walkMeasure ls

theorem Message.count_eq (m : Message) :
    m.count = 1 + m.enums.length + Message.countAll m.messages := by
  cases m
  simp [Message.count]

/-- The declarations that a walk with these open levels, the innermost first, has still to give. -/
def walk : List Level → List Declared
  | [] => []
  | ⟨s, e :: es, ms⟩ :: ls => s.declareEnum e :: walk (⟨s, es, ms⟩ :: ls)
  | ⟨s, [], m :: ms⟩ :: ls => s.declareMessage m :: walk (s.levelOf m :: ⟨s, [], ms⟩ :: ls)
  | ⟨_, [], []⟩ :: ls => walk ls
termination_by ls => walkMeasure ls
decreasing_by
  · simp [walkMeasure]
  · simp [walkMeasure, Scope.levelOf, Message.countAll, Message.count_eq]
    omega
  · simp [walkMeasure, Message.countAll]

def File.declarations (f : File) : List Declared :=
  walk [f.level]

-- The walk gives the declarations in order of the tree: a message, then what is in it.

mutual

def Message.declarations (s : Scope) : Message → List Declared
  | ⟨name, fields, choices, messages, enums, isMapEntry⟩ =>
    s.declareMessage ⟨name, fields, choices, messages, enums, isMapEntry⟩ ::
      enums.map (s.inside name).declareEnum ++ Message.declarationsOf (s.inside name) messages

def Message.declarationsOf (s : Scope) : List Message → List Declared
  | [] => []
  | m :: ms => m.declarations s ++ Message.declarationsOf s ms

end

theorem Message.declarations_eq (s : Scope) (m : Message) : m.declarations s =
    s.declareMessage m :: m.enums.map (s.inside m.name).declareEnum ++
      Message.declarationsOf (s.inside m.name) m.messages := by
  cases m
  rw [Message.declarations]

theorem walk_eq (levels : List Level) : walk levels =
    levels.flatMap fun l => l.enums.map l.scope.declareEnum ++ Message.declarationsOf l.scope l.messages := by
  fun_induction walk levels with
  | case1 => rfl
  | case2 s e es ms ls ih => simp [ih]
  | case3 s m ms ls ih =>
    rw [ih]
    simp [Scope.levelOf, Message.declarationsOf, Message.declarations_eq]
  | case4 s ls ih => simp [ih, Message.declarationsOf]

theorem File.declarations_eq (f : File) : f.declarations =
    f.enums.map f.topLevel.declareEnum ++ Message.declarationsOf f.topLevel f.messages := by
  simp [File.declarations, File.level, walk_eq]

end Protogen.Schema
