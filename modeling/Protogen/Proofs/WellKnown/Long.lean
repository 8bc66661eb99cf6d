import Protogen.Proofs.Codec.Length
import Protogen.Proofs.Number.IntegerText
import Protogen.WellKnown.Long

set_option autoImplicit false

namespace Protogen

open Number (Range intText)
open Wire.Read (Ensures Confined)

namespace Word

/-- Words are the integers of a range, and travel as they are. -/
structure Lawful {W : Type} (w : Word W) : Prop where
  ofInt_toInt : ∀ n, w.ofInt (w.toInt n) = n
  toInt_ofInt : ∀ i, w.range.contains i = true → w.toInt (w.ofInt i) = i
  contains : ∀ n, w.range.contains (w.toInt n) = true
  carries : ∀ depth n, w.codec.Carries depth n n
  confined : Confined 1 w.codec.read
  bounded : ∀ n, w.codec.Bounded n 10

theorem lawful_signed : signed.Lawful where
  ofInt_toInt := Int64.ofInt_toInt
  toInt_ofInt i inside := by
    obtain ⟨low, high⟩ := Range.contains_iff.1 inside
    exact Int64.toInt_ofInt_of_le low high
  contains n := Range.contains_iff.2 ⟨n.le_toInt, n.toInt_lt⟩
  carries := ValueCodec.carries_int64
  confined := Wire.Read.confined_int64
  bounded := ValueCodec.bounded_int64

theorem toNat_ofInt (n : Nat) (word : n < 18446744073709551616) :
    (UInt64.ofInt (n : Int)).toNat = n := by
  have value : ((n : Int) % 2 ^ 64).toNat = n := by omega
  rw [UInt64.ofInt, value]
  exact UInt64.toNat_ofNat_of_lt word

theorem lawful_unsigned : unsigned.Lawful where
  ofInt_toInt n := UInt64.toNat_inj.1 (toNat_ofInt n.toNat n.toNat_lt)
  toInt_ofInt i inside := by
    obtain ⟨low, high⟩ := Range.contains_iff.1 inside
    obtain ⟨n, rfl⟩ := Int.eq_ofNat_of_zero_le low
    exact congrArg Int.ofNat (toNat_ofInt n (Int.ofNat_lt.1 high))
  contains n := by
    refine Range.contains_iff.2 ⟨Int.natCast_nonneg n.toNat, ?_⟩
    exact Int.ofNat_lt.2 n.toNat_lt
  carries := ValueCodec.carries_uint64
  confined := Wire.Read.confined_uint64
  bounded := ValueCodec.bounded_uint64

end Word

namespace LongForm

variable {W : Type} {w : Word W}

def Canonical (L : LongForm W) (a : L.Carrier) : Prop :=
  ∃ n, L.ofWord n = a

structure Lawful (L : LongForm W) : Prop where
  toWord_ofWord : ∀ n, L.toWord (L.ofWord n) = .ok n
  zero_of_isZero : ∀ n, L.isZero (L.ofWord n) = true → L.ofWord n = L.zero
  canonical_zero : L.Canonical L.zero

theorem lawful_number (lawful : w.Lawful) : (number w).Lawful where
  toWord_ofWord _ := rfl
  zero_of_isZero n zero := by
    have value : w.toInt n = 0 := by simpa using zero
    change n = w.ofInt 0
    rw [← value, lawful.ofInt_toInt]
  canonical_zero := ⟨w.ofInt 0, rfl⟩

theorem canonical_text (lawful : w.Lawful) {i : Int} (inside : w.range.contains i = true) :
    (text w).Canonical (String.ofList (intText i)) := by
  refine ⟨w.ofInt i, ?_⟩
  change String.ofList (intText (w.toInt (w.ofInt i))) = _
  rw [lawful.toInt_ofInt i inside]

theorem lawful_text (lawful : w.Lawful) (zero : w.range.contains 0 = true) : (text w).Lawful where
  toWord_ofWord n := by
    simp only [String.toList_ofList, Text.trim_intText, Range.read?_intText (lawful.contains n),
      lawful.ofInt_toInt]
  zero_of_isZero n zero := by
    -- The empty text is taken for a zero as well, but is the text of no word.
    have nonempty : String.ofList (intText (w.toInt n)) ≠ "" := by
      intro empty
      have cs : intText (w.toInt n) = [] := by simpa using congrArg String.toList empty
      simp only [intText] at cs
      split at cs
      · cases cs
      · exact Number.natText_ne_nil _ cs
    simpa [nonempty] using zero
  canonical_zero := canonical_text lawful zero

theorem canonical_big (lawful : w.Lawful) {i : Int} (inside : w.range.contains i = true) :
    (big w).Canonical i :=
  ⟨w.ofInt i, lawful.toInt_ofInt i inside⟩

theorem lawful_big (lawful : w.Lawful) (zero : w.range.contains 0 = true) : (big w).Lawful where
  toWord_ofWord n := by
    simp only [lawful.contains, if_true, lawful.ofInt_toInt]
  zero_of_isZero n zero := by simpa using zero
  canonical_zero := canonical_big lawful zero

variable {L : LongForm W}

theorem carries_codec (lawful : w.Lawful) (form : L.Lawful) (depth : Nat) {a : L.Carrier}
    (canonical : L.Canonical a) : (L.codec w).Carries depth a a := by
  obtain ⟨n, rfl⟩ := canonical
  exact (lawful.carries depth n).via (form.toWord_ofWord n) rfl

theorem confined_codec (lawful : w.Lawful) : Confined 1 (L.codec w).read :=
  ValueCodec.confined_via _ _ lawful.confined

theorem ensures_codec (lawful : w.Lawful) (depth : Nat) :
    Ensures (L.codec w).read depth fun _ a => L.Canonical a := by
  refine ValueCodec.ensures_via _ _ (lawful.confined depth) ?_
  intro _ n a _ back
  exact ⟨n, Except.ok.inj back⟩

theorem bounded_codec (lawful : w.Lawful) (a : L.Carrier) : (L.codec w).Bounded a 10 :=
  ValueCodec.bounded_via _ fun n _ => lawful.bounded n

theorem eq_zero (form : L.Lawful) {a : L.Carrier} (canonical : L.Canonical a)
    (zero : L.isZero a = true) : a = L.zero := by
  obtain ⟨n, rfl⟩ := canonical
  exact form.zero_of_isZero n zero

end LongForm

-- Messages of a single value on the wire, so that a default that is there is not taken for one that is not.

namespace WellKnown.Wrapper

variable {α : Type} {base : α} {isDefault : α → Bool} {c : ValueCodec α} {depth : Nat}

theorem numbered (base : α) (isDefault : α → Bool) (c : ValueCodec α) :
    (codec base isDefault c).Numbered :=
  .of_numbers [1] rfl (by decide) (by decide)

theorem local_codec (confined : Confined 1 c.read) : (codec base isDefault c).Local := by
  simp only [MessageCodec.Local, codec, List.forall_mem_cons]
  exact ⟨FieldCodec.local_required confined, by simp⟩

theorem carries_valueCodec (shallow : depth < Wire.recursionLimit) {a : α}
    (elided : isDefault a = true → a = base) (carries : c.Carries (depth + 1) a a) :
    (valueCodec (codec base isDefault c)).Carries depth a a := by
  have delivers : MessageCodec.Delivers (depth + 1) (Wrapper.mk a) (codec base isDefault c).fields ⟨base⟩ ⟨a⟩ :=
    .cons (FieldCodec.delivers_value (fun default => by rw [elided default]) carries) (.nil _)
  exact (MessageCodec.carries_message (numbered base isDefault c) shallow delivers).via rfl rfl

theorem confined_valueCodec (confined : Confined 1 c.read) :
    Confined 1 (valueCodec (codec base isDefault c)).read :=
  ValueCodec.confined_via _ _ (MessageCodec.confined_message (local_codec confined))

theorem ensures_valueCodec (holds : Nat → α → Prop) (confined : Confined 1 c.read)
    (more : ∀ {n n' a}, n ≤ n' → holds n a → holds n' a) (start : holds 0 base)
    (value : Ensures c.read (depth + 1) fun bytes a => holds bytes.length a) :
    Ensures (valueCodec (codec base isDefault c)).read depth fun bytes a => holds bytes.length a := by
  have keeps : (codec base isDefault c).Keeps (depth + 1) fun n w => holds n w.value := by
    refine ⟨more, ?_⟩
    simp only [codec, List.forall_mem_cons]
    refine ⟨fun _ n _ _ => ?_, by simp⟩
    exact value.map _ fun bytes a held => more (by omega) held
  have held := MessageCodec.ensures_message (local_codec confined) keeps start
  refine ValueCodec.ensures_via _ _ held ?_
  rintro bytes w a ⟨-, n, short, held⟩ back
  cases back
  exact more (by omega) held

theorem ensures_string (depth : Nat) :
    Ensures (valueCodec string).read depth fun bytes s => s.utf8ByteSize ≤ bytes.length := by
  refine ensures_valueCodec (fun n (s : String) => s.utf8ByteSize ≤ n) Wire.Read.confined_string
    (fun fewer short => Nat.le_trans short fewer) (Nat.le_refl 0) ?_
  refine (Wire.Read.ensures_string (depth + 1)).weaken ?_
  rintro bytes s ⟨-, long⟩
  omega

theorem ensures_int64 {L : LongForm Int64} (form : L.Lawful) (depth : Nat) :
    Ensures (valueCodec (int64 L)).read depth fun _ a => L.Canonical a :=
  ensures_valueCodec (fun _ a => L.Canonical a) (LongForm.confined_codec Word.lawful_signed)
    (fun _ canonical => canonical) form.canonical_zero
    (LongForm.ensures_codec Word.lawful_signed (depth + 1))

theorem bounded_valueCodec {a : α} {n : Nat} (bounded : c.Bounded a n) (small : n < 34359738363) :
    (valueCodec (codec base isDefault c)).Bounded a (n + 10) := by
  refine ValueCodec.bounded_via _ ?_
  rintro _ ⟨⟩
  have content : ∀ f ∈ (codec base isDefault c).fields, f.Bounded (Wrapper.mk a) (n + 5) := by
    simp only [codec, List.forall_mem_cons]
    exact ⟨FieldCodec.bounded_required (by decide) bounded, by simp⟩
  have whole := MessageCodec.bounded_message content (by simp [codec]; omega)
  simpa [codec] using whole

end WellKnown.Wrapper

end Protogen
