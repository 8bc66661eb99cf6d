import Protogen.Descriptor.Layout
import Protogen.Wire.Record

set_option autoImplicit false

namespace Protogen.Descriptor

open Wire (Record)

inductive Node where
  | number (n : Nat)
  | text (s : String)
  | child (fields : List (Nat × Node))

abbrev Tree := List (Nat × Node)

namespace Tree

-- The node for a record, or none where nothing is kept of it. `limit` is how many levels may be inside the message,
-- and `childOf` reads a message at the next level.
def ofRecord (childOf : Kind → List UInt8 → Option Tree) (limit : Nat) (kind : Kind) (r : Record) :
    Option (Option (Nat × Node)) :=
  match kind.shape? r.number, r.payload with
  | some .number, .varint n => some (some (r.number, .number n))
  | some .numbers, .varint _ => some none
  | some .numbers, .delimited bs => (Record.varints bs).map fun _ => none
  | some .fixed64, .fixed64 => some none
  | some .text, .delimited bs =>
    (String.fromUTF8? ⟨bs.toArray⟩).map fun s => some (r.number, .text s)
  | some .bytes, .delimited _ => some none
  | some (.child k), .delimited bs => (childOf k bs).map fun t => some (r.number, .child t)
  | some _, _ => none
  | none, p => if p.height ≤ limit then some none else none

def read : Nat → Kind → List UInt8 → Option Tree
  | 0, kind, bs => do
    return (← (← Record.all bs).mapM (ofRecord (fun _ _ => none) 0 kind)).filterMap id
  | limit + 1, kind, bs => do
    return (← (← Record.all bs).mapM (ofRecord (read limit) (limit + 1) kind)).filterMap id

def ofBytes (kind : Kind) (bytes : ByteArray) : Option Tree :=
  read Wire.recursionLimit kind bytes.data.toList

def numbers (t : Tree) (field : Nat) : List Nat :=
  t.filterMap fun
    | (n, .number v) => if n = field then some v else none
    | _ => none

def texts (t : Tree) (field : Nat) : List String :=
  t.filterMap fun
    | (n, .text s) => if n = field then some s else none
    | _ => none

def children (t : Tree) (field : Nat) : List Tree :=
  t.filterMap fun
    | (n, .child c) => if n = field then some c else none
    | _ => none

-- Of several values of a singular field the last counts.
def number? (t : Tree) (field : Nat) : Option Nat :=
  (t.numbers field).getLast?

def int? (t : Tree) (field : Nat) : Option Int32 :=
  (t.number? field).map Int32.ofNat

def bool? (t : Tree) (field : Nat) : Option Bool :=
  (t.number? field).map (· != 0)

def text? (t : Tree) (field : Nat) : Option String :=
  (t.texts field).getLast?

-- Several messages in a singular field count as one with the fields of all.
def child? (t : Tree) (field : Nat) : Option Tree :=
  match t.children field with
  | [] => none
  | ts => some ts.flatten

end Tree

end Protogen.Descriptor
