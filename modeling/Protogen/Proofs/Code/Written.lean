import Mathlib.Data.List.Basic
import Protogen.Code.Writer

set_option autoImplicit false

namespace Protogen.Code

@[simp]
theorem Piece.render_text (s : String) : (text s).render = s :=
  rfl

def indented (depth : Nat) (text : String) : String :=
  if text.isEmpty then "" else String.ofList (List.replicate (4 * depth) ' ') ++ text

mutual

def Block.written (depth : Nat) : Block → List String
  | .line l => [indented depth l.render]
  | .blank => [""]
  | .block header body closer =>
    indented depth (header.render ++ " \x7b") :: writtenOf (depth + 1) body ++ [indented depth closer]
  | .hang opener body closer =>
    indented depth opener.render :: writtenOf (depth + 1) body ++ [indented depth closer]

def writtenOf (depth : Nat) : List Block → List String
  | [] => []
  | b :: bs => b.written depth ++ writtenOf depth bs

end

theorem writtenOf_append (depth : Nat) (code code' : List Block) :
    writtenOf depth (code ++ code') = writtenOf depth code ++ writtenOf depth code' := by
  induction code with
  | nil => rfl
  | cons b code ih => rw [List.cons_append, writtenOf, writtenOf, ih, List.append_assoc]

namespace Writer

variable {w : Writer}

def extended (w : Writer) (lines : List String) : Writer :=
  { w with lines := lines.reverse ++ w.lines }

theorem extended_extended (lines lines' : List String) :
    (w.extended lines).extended lines' = w.extended (lines ++ lines') := by
  simp [extended]

theorem run_append (steps steps' : List Step) : w.run (steps ++ steps') = (w.run steps).run steps' :=
  List.foldl_append ..

def deeper (w : Writer) : Writer :=
  { w with depth := w.depth + 1 }

-- A block that is closed leaves as many open as there were before.
theorem close_eq (lines : List String) (closer : String) :
    (w.deeper.extended lines).run [.closing closer] = w.extended (lines ++ [indented w.depth closer]) := by
  rw [← extended_extended]
  rfl

end Writer

mutual

theorem Block.run_steps (w : Writer) (b : Block) : w.run b.steps = w.extended (b.written w.depth) := by
  match b with
  | .line l => rfl
  | .blank => rfl
  | .block header body closer =>
    have inside := run_stepsOf (w.extended [indented w.depth (header.render ++ " \x7b")]).deeper body
    change ((w.extended [indented w.depth (header.render ++ " \x7b")]).deeper.run (stepsOf body ++ [.closing closer])) = _
    rw [Writer.run_append, inside, Writer.close_eq, Writer.extended_extended]
    rfl
  | .hang opener body closer =>
    have inside := run_stepsOf (w.extended [indented w.depth opener.render]).deeper body
    change ((w.extended [indented w.depth opener.render]).deeper.run (stepsOf body ++ [.closing closer])) = _
    rw [Writer.run_append, inside, Writer.close_eq, Writer.extended_extended]
    rfl

theorem run_stepsOf (w : Writer) (code : List Block) : w.run (stepsOf code) = w.extended (writtenOf w.depth code) := by
  match code with
  | [] => rfl
  | b :: bs =>
    rw [stepsOf, Writer.run_append, Block.run_steps w b, run_stepsOf _ bs, Writer.extended_extended]
    rfl

end

theorem joined_lines {lines : List String} (some : lines ≠ []) :
    (String.intercalate "\n" lines ++ "\n").toList = lines.flatMap fun l => l.toList ++ ['\n'] := by
  induction lines with
  | nil => exact absurd rfl some
  | cons l lines ih =>
    cases lines with
    | nil => simp
    | cons l' lines =>
      rw [String.intercalate_cons_cons, String.append_assoc, String.toList_append, ih (List.cons_ne_nil _ _)]
      simp

-- The text of code is its lines, each with a newline after it.
theorem toList_textOf {code : List Block} (some : writtenOf 0 code ≠ []) :
    (textOf code).toList = (writtenOf 0 code).flatMap fun l => l.toList ++ ['\n'] := by
  rw [textOf, run_stepsOf, Writer.text, Writer.joined, ← joined_lines some]
  simp [Writer.extended, Writer.empty]

@[simp]
theorem indented_zero (text : String) : indented 0 text = text := by
  rw [indented]
  split
  next empty => exact (String.isEmpty_iff.1 empty).symm
  next => simp

theorem suffix_indented (depth : Nat) (text : String) : text.toList <:+ (indented depth text).toList := by
  rw [indented]
  split
  next empty => simp [String.isEmpty_iff.1 empty]
  next => simp

mutual

theorem Block.infix_written (depth : Nat) {b : Block} {l : Line} (member : l ∈ b.lines) :
    ∃ t ∈ b.written depth, l.render.toList <:+: t.toList := by
  match b with
  | .line l' =>
    rw [Block.lines, List.mem_singleton] at member
    subst member
    exact ⟨_, List.mem_singleton_self _, (suffix_indented depth l.render).isInfix⟩
  | .blank => cases member
  | .block header body closer =>
    rw [Block.lines, List.mem_cons] at member
    rcases member with rfl | member
    · have front : l.render.toList <+: (l.render ++ " \x7b").toList := by simp
      exact ⟨_, List.mem_cons_self, front.isInfix.trans (suffix_indented depth _).isInfix⟩
    · obtain ⟨t, written, within⟩ := infix_writtenOf (depth + 1) member
      exact ⟨t, by simp [Block.written, written], within⟩
  | .hang opener body closer =>
    rw [Block.lines, List.mem_cons] at member
    rcases member with rfl | member
    · exact ⟨_, List.mem_cons_self, (suffix_indented depth _).isInfix⟩
    · obtain ⟨t, written, within⟩ := infix_writtenOf (depth + 1) member
      exact ⟨t, by simp [Block.written, written], within⟩

theorem infix_writtenOf (depth : Nat) {code : List Block} {l : Line} (member : l ∈ linesOf code) :
    ∃ t ∈ writtenOf depth code, l.render.toList <:+: t.toList := by
  match code with
  | [] => cases member
  | b :: bs =>
    rw [linesOf, List.mem_append] at member
    rcases member with member | member
    · obtain ⟨t, written, within⟩ := Block.infix_written depth member
      exact ⟨t, List.mem_append_left _ written, within⟩
    · obtain ⟨t, written, within⟩ := infix_writtenOf depth member
      exact ⟨t, List.mem_append_right _ written, within⟩

end

theorem infix_textOf {code : List Block} {l : Line} (member : l ∈ linesOf code) :
    l.render.toList <:+: (textOf code).toList := by
  obtain ⟨t, written, within⟩ := infix_writtenOf 0 member
  rw [toList_textOf (List.ne_nil_of_mem written), List.flatMap_def]
  have line : t.toList <+: t.toList ++ ['\n'] := List.prefix_append ..
  exact within.trans (line.isInfix.trans (List.infix_of_mem_flatten (List.mem_map_of_mem written)))

end Protogen.Code
