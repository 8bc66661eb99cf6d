import Protogen.Proofs.Code.Texts
import Protogen.Proofs.Number.IntegerText
import Protogen.Proofs.Target.Forms
import Protogen.Proofs.Target.Members

set_option autoImplicit false

namespace Protogen.Code

open Number (intText natText)
open Target (Base Child Field Member Primitive RecordForm Struct Union)

-- Writing.

/-- Lines that write records with the tag, of values in the form. -/
inductive Writes (tag : Nat) : RecordForm → List String → Prop
  | value (method argument : String) : Writes tag (.value method)
      ["writer.uint32(" ++ String.ofList (natText tag) ++ ")." ++ method ++ "(" ++ argument ++ ");"]
  | run (method place argument : String) : Writes tag (.run method)
      ["writer.uint32(" ++ String.ofList (natText tag) ++ ").fork();", "for v in &" ++ place,
        "writer." ++ method ++ "(" ++ argument ++ ");", "writer.ldelim();"]
  | child (path message : String) : Writes tag (.child path)
      ["writer.uint32(" ++ String.ofList (natText tag) ++ ").fork();", message ++ ".encode(writer)?;",
        "writer.ldelim();"]

def recordTag (f : Field) : Nat :=
  (f.schema.tag f.wireType.number).toNat

structure WritesAll (fs : List Field) (code : List Block) : Prop where
  tags : gathered Piece.tag? code = fs.map recordTag
  lines : ∀ f ∈ fs, ∃ lines, lines <:+: textsOf code ∧ Writes (recordTag f) f.form lines

namespace WritesAll

variable {fs fs' : List Field} {code code' body : List Block}

theorem line {l : Line} (untagged : l.pieces.filterMap Piece.tag? = []) : WritesAll [] [.line l] :=
  ⟨by simp [untagged], by simp⟩

theorem nil : WritesAll [] [] :=
  ⟨rfl, by simp⟩

theorem block {header : Line} (writes : WritesAll fs body) (untagged : header.pieces.filterMap Piece.tag? = []) :
    WritesAll fs [Code.block header body] := by
  constructor
  case tags => simp [untagged, writes.tags]
  case lines =>
    intro f member
    obtain ⟨lines, inside, form⟩ := writes.lines f member
    exact ⟨lines, inside.trans (infix_block header body), form⟩

theorem append (writes : WritesAll fs code) (writes' : WritesAll fs' code') :
    WritesAll (fs ++ fs') (code ++ code') := by
  constructor
  case tags => rw [gathered_append, writes.tags, writes'.tags, List.map_append]
  case lines =>
    intro f member
    rw [textsOf_append]
    rcases List.mem_append.1 member with member | member
    · obtain ⟨lines, inside, form⟩ := writes.lines f member
      exact ⟨lines, inside.trans (List.prefix_append ..).isInfix, form⟩
    · obtain ⟨lines, inside, form⟩ := writes'.lines f member
      exact ⟨lines, inside.trans (List.suffix_append ..).isInfix, form⟩

theorem flatMap {α : Type} {as : List α} {fields : α → List Field} {code : α → List Block}
    (each : ∀ a ∈ as, WritesAll (fields a) (code a)) : WritesAll (as.flatMap fields) (as.flatMap code) := by
  induction as with
  | nil => exact nil
  | cons a as ih =>
    obtain ⟨first, each⟩ := List.forall_mem_cons.1 each
    exact first.append (ih each)

end WritesAll

theorem exists_render_writeCall (p : Primitive) (v : Value) :
    ∃ argument, (writeCall p v).render = p.method ++ "(" ++ argument ++ ")" := by
  match p with
  | .scalar k =>
    refine ⟨if k = .string ∨ k = .bytes then v.borrowed else v.copied, ?_⟩
    cases k <;> simp [writeCall, Piece.render, Primitive.method, Schema.Kind.method]
  | .long k .number => exact ⟨v.copied, by simp [writeCall, Piece.render, Primitive.method]⟩
  | .long k .string =>
    refine ⟨Helper.longFromString.name ++ "(" ++ v.borrowed ++ ")?", ?_⟩
    simp [writeCall, Piece.render, Primitive.method, String.append_assoc]
  | .long k .bigInt =>
    refine ⟨Helper.longFromBigint.name ++ "(" ++ v.borrowed ++ ")?", ?_⟩
    simp [writeCall, Piece.render, Primitive.method, String.append_assoc]
  | .enum _ byName _ _ =>
    exact ⟨if byName then v.receiver ++ ".to_number()" else v.copied, by
      simp [writeCall, Piece.render, Primitive.method]⟩

theorem untagged_writeCall (p : Primitive) (v : Value) : (writeCall p v).pieces.filterMap Piece.tag? = [] := by
  match p with
  | .scalar k => cases k <;> simp [writeCall, Piece.tag?]
  | .long k form => cases form <;> simp [writeCall, Piece.tag?]
  | .enum .. => simp [writeCall, Piece.tag?]

theorem untagged_childMessage (c : Child) (v : Value) : (childMessage c v).pieces.filterMap Piece.tag? = [] := by
  match c with
  | .message .. | .wrapper .. => simp [childMessage, Piece.tag?]
  | .timestamp _ _ form => cases form <;> simp [childMessage, Piece.tag?]

theorem writesAll_writeRecord {f : Field} (single : ∀ shape, f.container ≠ .map shape) (apart : f.isRun = false)
    (v : Value) : WritesAll [f] (writeRecord f v) := by
  have form := Field.form_of_apart single apart
  have type := Field.wireType_of_apart single apart
  rw [writeRecord]
  split
  next c child =>
    have tag : recordTag f = (f.schema.tag Wire.WireType.delimited.number).toNat := by
      rw [recordTag, type, child]
      rfl
    constructor
    case tags => simp [delimited, tagOf, List.filterMap_cons, Piece.tag?, untagged_childMessage, tag]
    case lines =>
      rw [List.forall_mem_singleton, form, child, tag]
      refine ⟨_, List.infix_rfl, ?_⟩
      simpa [delimited, tagOf, Piece.render, Base.form] using Writes.child c.path (childMessage c v).render
  next p primitive =>
    have tag : recordTag f = (f.schema.tag p.wireType.number).toNat := by
      rw [recordTag, type, primitive]
      rfl
    constructor
    case tags => simp [tagOf, List.filterMap_cons, Piece.tag?, untagged_writeCall, tag]
    case lines =>
      rw [List.forall_mem_singleton, form, primitive, tag]
      obtain ⟨argument, call⟩ := exists_render_writeCall p v
      refine ⟨_, List.infix_rfl, ?_⟩
      simpa [tagOf, Piece.render, Base.form, call, String.append_assoc] using Writes.value p.method argument

theorem writesAll_encodeField {f : Field} (plain : f.union? = none) : WritesAll [f] (encodeField f) := by
  rw [encodeField]
  split
  next required =>
    have record (v : Value) : WritesAll [f] (writeRecord f v) :=
      writesAll_writeRecord (by simp [required]) (by simp [Field.isRun, required]) v
    split
    next => exact record _
    next => exact (record _).block (by simp [Piece.tag?])
  next optional =>
    have record : WritesAll [f] (writeRecord f (.ref "v")) :=
      writesAll_writeRecord (by simp [optional]) (by simp [Field.isRun, optional]) _
    exact record.block (by simp [Piece.tag?])
  next repeated =>
    have record (apart : f.base.isPackable = false) : WritesAll [f] (writeRecord f (.ref "v")) :=
      writesAll_writeRecord (by simp [repeated]) (by simp [Field.isRun, apart]) _
    split
    next c child => exact (record (by rw [child]; rfl)).block (by simp [Piece.tag?])
    next p primitive =>
      split
      next packable =>
        -- One tag stands in front of all the values, which have none of their own.
        have many : f.isRun = true := by simp [Field.isRun, repeated, primitive, Base.isPackable, packable]
        have tag : recordTag f = (f.schema.tag Wire.WireType.delimited.number).toNat := by
          simp only [recordTag, Field.wireType, repeated, many, if_true]
        have form : f.form = .run p.method := by
          simp only [Field.form, repeated, many, if_true, primitive, Base.run]
        constructor
        case tags => simp [delimited, tagOf, List.filterMap_cons, Piece.tag?, untagged_writeCall, tag]
        case lines =>
          rw [List.forall_mem_singleton, form, tag]
          obtain ⟨argument, call⟩ := exists_render_writeCall p (.ref "v")
          refine ⟨_, infix_block .., ?_⟩
          simpa [delimited, tagOf, Piece.render, call, String.append_assoc] using
            Writes.run p.method ("self." ++ f.ident) argument
      next other => exact (record (by simpa [primitive, Base.isPackable] using other)).block (by simp [Piece.tag?])
  next shape map =>
    have tag : recordTag f = (f.schema.tag Wire.WireType.delimited.number).toNat := by
      simp only [recordTag, Field.wireType, map]
    have form : f.form = .child shape.entryPath := by simp only [Field.form, map]
    constructor
    case tags => simp [delimited, tagOf, List.filterMap_cons, Piece.tag?, tag]
    case lines =>
      rw [List.forall_mem_singleton, form, tag]
      refine ⟨_, infix_block .., ?_⟩
      simpa [delimited, tagOf, Piece.render, String.append_assoc] using
        Writes.child shape.entryPath (shape.entryPath ++ " \x7b key: " ++
          (Value.ref "key").cloned shape.key.isCopy ++ ", value: " ++ entryValue shape f.base ++ " \x7d")
  next choice variant union => simp [Field.union?, union] at plain

theorem plain_of_mem_members {s : Struct} {f : Field} (listed : Member.field f ∈ s.members) : f.union? = none := by
  obtain ⟨⟨g, i⟩, -, brought⟩ := List.mem_filterMap.1 listed
  change s.memberAt i g = some (.field f) at brought
  cases variant : g.union? with
  | some choice =>
    obtain ⟨u, -, same, -⟩ := Struct.memberAt_of_variant (by simp [variant]) brought
    cases same
  | none =>
    rw [Struct.memberAt_of_plain (by simp [variant])] at brought
    cases brought
    exact variant

theorem container_of_mem_variants {s : Struct} {u : Union} {p : String × Field} (listed : p ∈ s.variants u) :
    ∃ choice, p.2.container = .union choice p.1 := by
  obtain ⟨i, -, found⟩ := List.mem_filterMap.1 listed
  split at found
  next f here =>
    split at found
    next choice variant container =>
      cases found
      exact ⟨choice, container⟩
    next => cases found
  next => cases found

theorem writesAll_matchUnion (s : Struct) (u : Union) :
    WritesAll (s.written (.union u)) [matchUnion s u fun f => writeRecord f (.ref "v")] := by
  have arms : WritesAll ((s.variants u).flatMap fun p => [p.2]) ((s.variants u).flatMap fun p =>
      [block ("Some(" ++ u.symbol ++ "::" ++ p.1 ++ "(v)) =>") (writeRecord p.2 (.ref "v"))]) := by
    refine .flatMap fun p listed => ?_
    obtain ⟨choice, container⟩ := container_of_mem_variants listed
    refine (writesAll_writeRecord ?_ ?_ _).block (by simp [Piece.tag?])
    · simp [container]
    · simp [Field.isRun, container]
  rw [← List.map_eq_flatMap, ← List.map_eq_flatMap] at arms
  have none : WritesAll [] [.line "None => \x7b\x7d"] := .line (by simp [Piece.tag?])
  have both := arms.append none
  rw [List.append_nil] at both
  exact both.block (by simp [Piece.tag?])

theorem writesAll_encodeFn (s : Struct) : WritesAll (s.members.flatMap s.written) [encodeFn s] := by
  have done : WritesAll [] [.line "Ok(())"] := .line (by simp [Piece.tag?])
  rw [encodeFn]
  split
  next empty =>
    have none : s.members = [] := by rw [Struct.members, List.isEmpty_iff.1 empty]; rfl
    rw [none]
    exact done.block (by simp [Piece.tag?])
  next =>
    refine .block ?_ (by simp [Piece.tag?])
    rw [← List.append_nil (s.members.flatMap s.written)]
    refine .append (.flatMap fun member listed => ?_) done
    cases member with
    | field f => exact writesAll_encodeField (plain_of_mem_members listed)
    | union u => exact writesAll_matchUnion s u

-- Reading.

structure ReadsOnce (call : String) (code : List Block) : Prop where
  calls : gathered Piece.call? code = [call]
  text : ∃ before after, before ++ "reader." ++ call ++ "()?" ++ after ∈ textsOf code

/-- An arm that reads values in the form. -/
inductive Reads : RecordForm → List Block → Prop
  | value {method : String} {body : List Block} (once : ReadsOnce method body) : Reads (.value method) body
  | run {method : String} {run single : List Block} (first : ReadsOnce method run)
      (other : ReadsOnce method single) :
      Reads (.run method) [block "if (tag & 7) == 2" run, block "else" single]
  | child {path : String} {body : List Block} (once : ReadsOnce ("message::<" ++ path ++ ">") body) :
      Reads (.child path) body

namespace ReadsOnce

variable {call : String} {code : List Block} {l before after : Line}

theorem line (calls : l.pieces.filterMap Piece.call? = [call]) (before after : String)
    (text : l.render = before ++ "reader." ++ call ++ "()?" ++ after) : ReadsOnce call [.line l] :=
  ⟨by simp [calls], before, after, by simp [text]⟩

theorem preceded (once : ReadsOnce call [.line l]) (silent : before.pieces.filterMap Piece.call? = []) :
    ReadsOnce call [.line (before ++ l)] := by
  obtain ⟨calls, front, back, text⟩ := once
  rw [gathered_line, gathered_nil, List.append_nil] at calls
  rw [textsOf_line, textsOf_nil, List.mem_singleton] at text
  exact .line (by simp [silent, calls]) (before.render ++ front) back (by simp [← text, String.append_assoc])

theorem continued (once : ReadsOnce call [.line l]) (silent : after.pieces.filterMap Piece.call? = []) :
    ReadsOnce call [.line (l ++ after)] := by
  obtain ⟨calls, front, back, text⟩ := once
  rw [gathered_line, gathered_nil, List.append_nil] at calls
  rw [textsOf_line, textsOf_nil, List.mem_singleton] at text
  exact .line (by simp [silent, calls]) front (back ++ after.render) (by simp [← text, String.append_assoc])

theorem append {rest : List Block} (once : ReadsOnce call code) (silent : gathered Piece.call? rest = []) :
    ReadsOnce call (code ++ rest) := by
  obtain ⟨calls, before, after, text⟩ := once
  refine ⟨by rw [gathered_append, calls, silent, List.append_nil], before, after, ?_⟩
  rw [textsOf_append]
  exact List.mem_append_left _ text

theorem behind {front : List Block} (once : ReadsOnce call code) (silent : gathered Piece.call? front = []) :
    ReadsOnce call (front ++ code) := by
  obtain ⟨calls, before, after, text⟩ := once
  refine ⟨by rw [gathered_append, calls, silent, List.nil_append], before, after, ?_⟩
  rw [textsOf_append]
  exact List.mem_append_right _ text

theorem block {header : Line} (once : ReadsOnce call code) (silent : header.pieces.filterMap Piece.call? = []) :
    ReadsOnce call [Code.block header code] := by
  obtain ⟨calls, before, after, text⟩ := once
  exact ⟨by simp [silent, calls], before, after, (infix_block header code).subset text⟩

end ReadsOnce

theorem readsOnce_method (p : Primitive) : ReadsOnce p.method [.line (readValue (.primitive p))] := by
  match p with
  | .scalar k | .long k .number =>
    exact .line (by simp [readValue, List.filterMap_cons, Piece.call?, Primitive.method]) "" ""
      (by simp [readValue, Piece.render, Primitive.method])
  | .long k .string =>
    exact .line (by simp [readValue, List.filterMap_cons, Piece.call?, Primitive.method]) "" ".to_string()"
      (by simp [readValue, Piece.render, Primitive.method, String.append_assoc])
  | .long k .bigInt =>
    exact .line (by simp [readValue, List.filterMap_cons, Piece.call?, Primitive.method])
      "::protoweave::num_bigint::BigInt::from(" ")"
      (by simp [readValue, Piece.render, Primitive.method, String.append_assoc])
  | .enum path true _ _ =>
    exact .line (by simp [readValue, List.filterMap_cons, Piece.call?, Primitive.method])
      (path ++ "::from_number(") ")" (by simp [readValue, Piece.render, Primitive.method, String.append_assoc])
  | .enum path false _ _ =>
    exact .line (by simp [readValue, List.filterMap_cons, Piece.call?, Primitive.method]) "" ""
      (by simp [readValue, Piece.render, Primitive.method])

-- The text of a path stands between two pieces of text that are parts of the call.
theorem readsOnce_message (before path after : String) : ReadsOnce ("message::<" ++ path ++ ">")
    [.line ((before ++ "reader.message::<" : String) ++ Piece.message path ++ (">()?" ++ after : String))] := by
  refine .line (by simp [List.filterMap_cons, Piece.call?]) before after ?_
  have reader : "reader.message::<" = "reader." ++ "message::<" := rfl
  have close : ">()?" = ">" ++ "()?" := rfl
  simp only [Line.render_append, Line.render_piece, Piece.render, String.append_assoc]
  rw [reader, close, String.append_assoc, String.append_assoc]

theorem readsOnce_child (c : Child) : ReadsOnce ("message::<" ++ c.path ++ ">") [.line (readValue (.child c))] := by
  have message (path : String) : ReadsOnce ("message::<" ++ path ++ ">")
      [.line ("reader.message::<" ++ Piece.message path ++ ">()?")] := readsOnce_message "" path ""
  match c with
  | .message path _ true => exact ((message path).preceded (by simp [Piece.call?])).continued (by simp [Piece.call?])
  | .message path _ false | .timestamp path _ .timestamp => exact message path
  | .wrapper path _ => exact (message path).continued (by simp [Piece.call?])
  | .timestamp path _ .date | .timestamp path _ .string =>
    exact ((message path).preceded (by simp [Piece.call?])).continued (by simp [Piece.call?])

def callOf : Base → String
  | .primitive p => p.method
  | .child c => "message::<" ++ c.path ++ ">"

theorem readsOnce_readValue (b : Base) : ReadsOnce (callOf b) [.line (readValue b)] := by
  cases b with
  | primitive p => exact readsOnce_method p
  | child c => exact readsOnce_child c

theorem reads_of_once {b : Base} {body : List Block} (once : ReadsOnce (callOf b) body) : Reads b.form body := by
  cases b with
  | primitive p => exact .value once
  | child c => exact .child once

theorem reads_run {b : Base} {run single : List Block} (packable : b.isPackable = true)
    (first : ReadsOnce (callOf b) run) (other : ReadsOnce (callOf b) single) :
    Reads b.run [block "if (tag & 7) == 2" run, block "else" single] := by
  cases b with
  | primitive p => exact .run first other
  | child c => cases packable

theorem reads_decodeArm {s : Struct} {f : Field}
    (chosen : ∀ choice variant, f.container = .union choice variant → ∃ u, s.union? choice = some u) :
    Reads f.form (decodeArm s f).body := by
  have value := readsOnce_readValue f.base
  -- In all arms but that of a map the value is read in the first line, and nothing is read in the others.
  have assigned {before after : Line} {rest : List Block} (front : before.pieces.filterMap Piece.call? = [])
      (back : after.pieces.filterMap Piece.call? = []) (silent : gathered Piece.call? rest = []) :
      ReadsOnce (callOf f.base) (.line (before ++ readValue f.base ++ after) :: rest) :=
    ((value.preceded front).continued back).append silent
  rw [decodeArm, block, Block.body]
  split
  next required =>
    rw [Field.form_of_apart (by simp [required]) (by simp [Field.isRun, required])]
    exact reads_of_once (assigned (by simp [Piece.call?]) (by simp [Piece.call?]) rfl)
  next optional =>
    rw [Field.form_of_apart (by simp [optional]) (by simp [Field.isRun, optional])]
    refine reads_of_once (assigned (by simp [Piece.call?]) (by simp [Piece.call?]) ?_)
    simp [clearSiblings, gathered_map, Piece.call?]
  next repeated =>
    let push : Block := .line (("message." ++ f.ident : String) ++ ".push(" ++ readValue f.base ++ ");")
    have single : ReadsOnce (callOf f.base) [push] := assigned (by simp [Piece.call?]) (by simp [Piece.call?]) rfl
    split
    next packable =>
      -- A reader takes a run of values and a single one, by the same method.
      have many : f.isRun = true := by simp [Field.isRun, repeated, packable]
      have form : f.form = f.base.run := by simp only [Field.form, repeated, many, if_true]
      have loop : ReadsOnce (callOf f.base) [block "while reader.index() < run_end" [push]] :=
        single.block (by simp [Piece.call?])
      have run : ReadsOnce (callOf f.base) ([.line "let run_end = reader.length()? + reader.index();"] ++
          [block "while reader.index() < run_end" [push]]) := loop.behind (by simp [Piece.call?])
      rw [form]
      exact reads_run packable run single
    next other =>
      rw [Field.form_of_apart (by simp [repeated]) (by simpa [Field.isRun] using fun _ => other)]
      exact reads_of_once single
  next shape map =>
    have form : f.form = .child shape.entryPath := by simp only [Field.form, map]
    have entry : ReadsOnce ("message::<" ++ shape.entryPath ++ ">")
        [.line ("let entry = reader.message::<" ++ Piece.message shape.entryPath ++ ">()?;")] :=
      readsOnce_message "let entry = " shape.entryPath ";"
    rw [form]
    refine .child (entry.append ?_)
    split <;> simp [Piece.call?]
  next choice variant union =>
    rw [Field.form_of_apart (by simp [union]) (by simp [Field.isRun, union])]
    obtain ⟨u, found⟩ := chosen choice variant union
    rw [setUnion, found]
    exact reads_of_once (assigned (by simp [Piece.call?]) (by simp [Piece.call?]) rfl)

def armHead (number : Int32) : String :=
  String.ofList (intText number.toInt) ++ " =>"

theorem armHead_inj {n n' : Int32} : armHead n = armHead n' ↔ n = n' := by
  constructor
  · intro same
    have digits : intText n.toInt = intText n'.toInt := by
      simpa only [armHead, String.append_left_inj, String.ofList_inj] using same
    have read := congrArg Number.readInt? digits
    rw [Number.readInt?_intText, Number.readInt?_intText] at read
    exact Int32.toInt_inj.1 (Option.some.inj read)
  · rintro rfl
    rfl

theorem armsOf_decodeFn (s : Struct) : armsOf [decodeFn s] =
    s.fields.map fun f => (armHead f.schema.number, (decodeArm s f).body) := by
  rw [decodeFn]
  split
  next empty =>
    rw [List.isEmpty_iff.1 empty]
    simp [armsOf, Block.arms, block, Piece.render]
  next =>
    have arms : (s.fields.map (decodeArm s)).filterMap Block.arm? =
        s.fields.map fun f => (armHead f.schema.number, (decodeArm s f).body) := by
      rw [List.filterMap_map, ← List.filterMap_eq_map]
      refine List.filterMap_congr fun f _ => ?_
      simp [decodeArm, block, Block.arm?, Block.body, armHead, Piece.render]
    simp [armsOf, Block.arms, Block.arm?, block, Piece.render, arms]

theorem filter_arms {s : Struct} (distinct : (s.fields.map (·.schema.number)).Nodup) {f : Field}
    (member : f ∈ s.fields) : (armsOf [decodeFn s]).filter (·.1 == armHead f.schema.number) =
      [(armHead f.schema.number, (decodeArm s f).body)] := by
  have heads : (s.fields.map fun f => armHead f.schema.number).Nodup := by
    have texts := distinct.map (f := armHead) fun _ _ => armHead_inj.1
    rwa [List.map_map] at texts
  rw [armsOf_decodeFn, List.filter_map]
  exact congrArg _ (filter_key heads member)

end Protogen.Code
