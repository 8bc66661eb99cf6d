import Protogen.Proofs.Code.Calls

set_option autoImplicit false

namespace Protogen.Code

def Piece.tag? : Piece → Option Nat
  | tag t => some t.toNat
  | _ => none

def Piece.call? : Piece → Option String
  | method name => some name
  | message path => some ("message::<" ++ path ++ ">")
  | _ => none

def gathered {α : Type} (pick : Piece → Option α) (code : List Block) : List α :=
  (linesOf code).flatMap fun l => l.pieces.filterMap pick

section Gathered

variable {α β : Type} {pick : Piece → Option α}

@[simp]
theorem gathered_nil : gathered pick [] = [] :=
  rfl

@[simp]
theorem gathered_line (l : Line) (code : List Block) :
    gathered pick (.line l :: code) = l.pieces.filterMap pick ++ gathered pick code :=
  rfl

@[simp]
theorem gathered_block (header : Line) (body code : List Block) : gathered pick (block header body :: code) =
    header.pieces.filterMap pick ++ gathered pick body ++ gathered pick code := by
  rw [gathered, linesOf, block, Block.lines, List.cons_append, List.flatMap_cons, List.flatMap_append,
    List.append_assoc]
  rfl

@[simp]
theorem gathered_append (code code' : List Block) :
    gathered pick (code ++ code') = gathered pick code ++ gathered pick code' := by
  rw [gathered, linesOf_eq, List.flatMap_append, List.flatMap_append, ← linesOf_eq, ← linesOf_eq]
  rfl

theorem gathered_flatMap (f : β → List Block) (bs : List β) :
    gathered pick (bs.flatMap f) = bs.flatMap fun b => gathered pick (f b) := by
  induction bs with
  | nil => rfl
  | cons b bs ih => rw [List.flatMap_cons, List.flatMap_cons, gathered_append, ih]

theorem gathered_map (f : β → Block) (bs : List β) :
    gathered pick (bs.map f) = bs.flatMap fun b => gathered pick [f b] := by
  rw [← gathered_flatMap, List.map_eq_flatMap]

end Gathered

@[simp]
theorem Line.pieces_append (l l' : Line) : (l ++ l').pieces = l.pieces ++ l'.pieces :=
  rfl

@[simp]
theorem Line.render_append (l l' : Line) : (l ++ l').render = l.render ++ l'.render := by
  rw [Line.render, Line.pieces_append, List.map_append, String.join_append]
  rfl

@[simp]
theorem Line.render_piece (p : Piece) : Line.render ⟨[p]⟩ = p.render := by
  rw [Line.render, List.map_singleton, String.join]
  simp

def textsOf (code : List Block) : List String :=
  (linesOf code).map Line.render

@[simp]
theorem textsOf_nil : textsOf [] = [] :=
  rfl

@[simp]
theorem textsOf_line (l : Line) (code : List Block) : textsOf (.line l :: code) = l.render :: textsOf code :=
  rfl

@[simp]
theorem textsOf_block (header : Line) (body code : List Block) :
    textsOf (block header body :: code) = header.render :: (textsOf body ++ textsOf code) := by
  rw [textsOf, linesOf, List.map_append]
  rfl

@[simp]
theorem textsOf_append (code code' : List Block) : textsOf (code ++ code') = textsOf code ++ textsOf code' := by
  rw [textsOf, linesOf_eq, List.flatMap_append, List.map_append, ← linesOf_eq, ← linesOf_eq]
  rfl

theorem textsOf_map {β : Type} (l : β → Line) (bs : List β) :
    textsOf (bs.map fun b => .line (l b)) = bs.map fun b => (l b).render := by
  induction bs with
  | nil => rfl
  | cons b bs ih => rw [List.map_cons, textsOf_line, ih, List.map_cons]

theorem infix_block (header : Line) (body : List Block) : textsOf body <:+: textsOf [block header body] := by
  rw [textsOf_block]
  exact ⟨[header.render], textsOf [], rfl⟩

theorem infix_of_mem {b : Block} {code : List Block} (member : b ∈ code) : textsOf [b] <:+: textsOf code := by
  obtain ⟨before, after, rfl⟩ := List.append_of_mem member
  refine ⟨textsOf before, textsOf after, ?_⟩
  rw [← textsOf_append, ← textsOf_append, List.append_assoc, List.singleton_append]

theorem infix_of_mem_block {b : Block} {header : Line} {body code : List Block} (inside : b ∈ body)
    (member : block header body ∈ code) : textsOf [b] <:+: textsOf code :=
  (infix_of_mem inside).trans ((infix_block header body).trans (infix_of_mem member))

def Block.body : Block → List Block
  | .block _ body _ | .hang _ body _ => body
  | .line _ | .blank => []

def Block.arm? : Block → Option (String × List Block)
  | .block header body _ => some (header.render, body)
  | _ => none

mutual

def Block.arms : Block → List (String × List Block)
  | .line _ | .blank => []
  | .block header body _ => if header.render = "match tag >> 3" then body.filterMap Block.arm? else armsOf body
  | .hang _ body _ => armsOf body

def armsOf : List Block → List (String × List Block)
  | [] => []
  | b :: bs => b.arms ++ armsOf bs

end

end Protogen.Code
