/-
  EdgeLb.Lib.Protobuf — the protobuf wire format, as far as messages of strings, unsigned
  numbers and messages need it.

  A message is the fields that are set, in the order of their tags: a proto3 scalar at its
  default is left out, a repeated field stands once for every element. A field is its key
  (tag and wire type) and a varint, or a length and that many bytes. Every part says where
  it ends, so that what is written is written by one list of fields only (`message_inj`);
  which fields a message has then tells its record, tag by tag (`fieldsAt`).
-/

import Mathlib.Data.List.Basic
import EdgeLb.Lib.Wire

namespace EdgeLb.Lib.Protobuf

/-! ## Varints -/

/-- `fuel` bounds the number of continued groups. -/
def varintFrom : Nat → Nat → Bytes
  | 0, n => [UInt8.ofNat n]
  | fuel + 1, n => if n < 128 then [UInt8.ofNat n] else UInt8.ofNat (n % 128 + 128) :: varintFrom fuel (n / 128)

/-- Groups of seven bits, the lowest first, each but the last with the high bit set. -/
def varint (n : Nat) : Bytes := varintFrom n n

/-- A number off the front of the input; the high bit tells the last group from the others. -/
def readVarint : Bytes → Option (Nat × Bytes)
  | [] => none
  | b :: bs =>
    if b.toNat < 128 then some (b.toNat, bs)
    else (readVarint bs).map fun (high, rest) => (b.toNat % 128 + 128 * high, rest)

theorem readVarint_last {n : Nat} (h : n < 128) (rest : Bytes) : readVarint (UInt8.ofNat n :: rest) = some (n, rest) := by
  have hbyte : (UInt8.ofNat n).toNat = n := by
    rw [UInt8.toNat_ofNat']
    omega
  rw [readVarint, hbyte, if_pos h]

theorem readVarint_group (n : Nat) (bs : Bytes) : readVarint (UInt8.ofNat (n % 128 + 128) :: bs) =
    (readVarint bs).map fun (high, rest) => (n % 128 + 128 * high, rest) := by
  have hbyte : (UInt8.ofNat (n % 128 + 128)).toNat = n % 128 + 128 := by
    rw [UInt8.toNat_ofNat']
    omega
  have hlow : (n % 128 + 128) % 128 = n % 128 := by omega
  rw [readVarint, hbyte, if_neg (by omega), hlow]

theorem readVarint_varintFrom {fuel n : Nat} (hn : n ≤ fuel) (rest : Bytes) :
    readVarint (varintFrom fuel n ++ rest) = some (n, rest) := by
  induction fuel generalizing n with
  | zero => exact readVarint_last (by omega) rest
  | succ fuel ih =>
    rw [varintFrom]
    split
    · next hlast => exact readVarint_last hlast rest
    · rw [List.cons_append, readVarint_group, ih (by omega), Option.map_some]
      exact congrArg (fun value => some (value, rest)) (Nat.mod_add_div n 128)

theorem varint_append_inj {n n' : Nat} {xs ys : Bytes} (h : varint n ++ xs = varint n' ++ ys) : n = n' ∧ xs = ys := by
  have hread := congrArg readVarint h
  rw [varint, varint, readVarint_varintFrom (Nat.le_refl n), readVarint_varintFrom (Nat.le_refl n')] at hread
  exact Prod.mk.inj (Option.some.inj hread)

theorem varint_ne_nil (n : Nat) : varint n ≠ [] := by
  unfold varint
  cases n with
  | zero => simp [varintFrom]
  | succ n =>
    rw [varintFrom]
    split
    · simp
    · simp

/-! ## Fields -/

inductive Field
  | number (tag value : Nat)
  | bytes (tag : Nat) (value : Bytes)
  deriving DecidableEq, Repr

def Field.tag : Field → Nat
  | .number tag _ => tag
  | .bytes tag _ => tag

/-- The wire type is in the three lowest bits of the key. -/
def Field.encode : Field → Bytes
  | .number tag value => varint (8 * tag) ++ varint value
  | .bytes tag value => varint (8 * tag + 2) ++ (varint value.length ++ value)

def message (fields : List Field) : Bytes := fields.flatMap Field.encode

theorem Field.encode_append_inj {f g : Field} {xs ys : Bytes} (h : f.encode ++ xs = g.encode ++ ys) : f = g ∧ xs = ys := by
  cases f with
  | number tag value =>
    cases g with
    | number tag' value' =>
      simp only [encode, List.append_assoc] at h
      obtain ⟨hkey, h⟩ := varint_append_inj h
      obtain ⟨rfl, hrest⟩ := varint_append_inj h
      obtain rfl : tag = tag' := by omega
      exact ⟨rfl, hrest⟩
    | bytes tag' value' =>
      simp only [encode, List.append_assoc] at h
      have hkey := (varint_append_inj h).1
      omega
  | bytes tag value =>
    cases g with
    | number tag' value' =>
      simp only [encode, List.append_assoc] at h
      have hkey := (varint_append_inj h).1
      omega
    | bytes tag' value' =>
      simp only [encode, List.append_assoc] at h
      obtain ⟨hkey, h⟩ := varint_append_inj h
      obtain ⟨hlength, h⟩ := varint_append_inj h
      obtain ⟨rfl, hrest⟩ := List.append_inj h hlength
      obtain rfl : tag = tag' := by omega
      exact ⟨rfl, hrest⟩

theorem Field.encode_ne_nil (f : Field) : f.encode ≠ [] := by
  cases f with
  | number tag value => simp [encode, varint_ne_nil]
  | bytes tag value => simp [encode, varint_ne_nil]

theorem message_inj {fs gs : List Field} (h : message fs = message gs) : fs = gs := by
  induction fs generalizing gs with
  | nil =>
    cases gs with
    | nil => rfl
    | cons g gs => simp [message, Field.encode_ne_nil] at h
  | cons f fs ih =>
    cases gs with
    | nil => simp [message, Field.encode_ne_nil] at h
    | cons g gs =>
      simp only [message, List.flatMap_cons] at h
      obtain ⟨rfl, hrest⟩ := Field.encode_append_inj h
      rw [ih hrest]

/-! ## Proto3 records -/

def utf8 (s : String) : Bytes := s.toByteArray.data.toList

theorem utf8_inj {s t : String} (h : utf8 s = utf8 t) : s = t := by
  apply String.toByteArray_inj.mp
  apply ByteArray.ext
  exact Array.toList_inj.mp h

def uint32 (tag : Nat) (value : UInt32) : List Field := if value = 0 then [] else [.number tag value.toNat]

def string (tag : Nat) (value : String) : List Field := if value = "" then [] else [.bytes tag (utf8 value)]

def repeated {α : Type} (tag : Nat) (encode : α → Bytes) (values : List α) : List Field :=
  values.map fun value => .bytes tag (encode value)

/-- The fields of one tag. -/
def fieldsAt (tag : Nat) (fields : List Field) : List Field := fields.filter fun f => f.tag = tag

@[simp] theorem fieldsAt_append (tag : Nat) (fs gs : List Field) :
    fieldsAt tag (fs ++ gs) = fieldsAt tag fs ++ fieldsAt tag gs := List.filter_append ..

variable {tag : Nat}

theorem fieldsAt_self {fs : List Field} (h : ∀ f ∈ fs, f.tag = tag) : fieldsAt tag fs = fs := by
  rw [fieldsAt, List.filter_eq_self]
  exact fun f hf => decide_eq_true (h f hf)

theorem fieldsAt_other {tag tag' : Nat} {fs : List Field} (h : ∀ f ∈ fs, f.tag = tag) (hne : tag ≠ tag') :
    fieldsAt tag' fs = [] := by
  rw [fieldsAt, List.filter_eq_nil_iff]
  intro f hf heq
  exact hne ((h f hf).symm.trans (of_decide_eq_true heq))

theorem tag_uint32 {value : UInt32} : ∀ f ∈ uint32 tag value, f.tag = tag := by
  intro f hf
  unfold uint32 at hf
  split at hf
  · cases hf
  · rw [List.mem_singleton.mp hf]
    rfl

theorem tag_string {value : String} : ∀ f ∈ string tag value, f.tag = tag := by
  intro f hf
  unfold string at hf
  split at hf
  · cases hf
  · rw [List.mem_singleton.mp hf]
    rfl

theorem tag_repeated {α : Type} {encode : α → Bytes} {values : List α} :
    ∀ f ∈ repeated tag encode values, f.tag = tag := by
  intro f hf
  obtain ⟨value, -, rfl⟩ := List.mem_map.mp hf
  rfl

@[simp] theorem fieldsAt_uint32 (tag tag' : Nat) (value : UInt32) :
    fieldsAt tag' (uint32 tag value) = if tag = tag' then uint32 tag value else [] := by
  split
  · next h => exact h ▸ fieldsAt_self tag_uint32
  · next h => exact fieldsAt_other tag_uint32 h

@[simp] theorem fieldsAt_string (tag tag' : Nat) (value : String) :
    fieldsAt tag' (string tag value) = if tag = tag' then string tag value else [] := by
  split
  · next h => exact h ▸ fieldsAt_self tag_string
  · next h => exact fieldsAt_other tag_string h

@[simp] theorem fieldsAt_repeated {α : Type} (tag tag' : Nat) (encode : α → Bytes) (values : List α) :
    fieldsAt tag' (repeated tag encode values) = if tag = tag' then repeated tag encode values else [] := by
  split
  · next h => exact h ▸ fieldsAt_self tag_repeated
  · next h => exact fieldsAt_other tag_repeated h

theorem uint32_inj {a b : UInt32} (h : uint32 tag a = uint32 tag b) : a = b := by
  unfold uint32 at h
  split at h <;> split at h
  · simp_all
  · cases h
  · cases h
  · obtain ⟨-, hvalue⟩ := Field.number.inj (List.cons.inj h).1
    exact UInt32.toNat_inj.mp hvalue

theorem string_inj {a b : String} (h : string tag a = string tag b) : a = b := by
  unfold string at h
  split at h <;> split at h
  · simp_all
  · cases h
  · cases h
  · obtain ⟨-, hvalue⟩ := Field.bytes.inj (List.cons.inj h).1
    exact utf8_inj hvalue

theorem repeated_inj {α : Type} {encode : α → Bytes} (hencode : Function.Injective encode) {as bs : List α}
    (h : repeated tag encode as = repeated tag encode bs) : as = bs := by
  refine List.map_injective_iff.mpr ?_ h
  intro a b hab
  exact hencode (Field.bytes.inj hab).2

example : message (string 2 "192.0.2.11" ++ uint32 5 300) =
    [18, 10, 49, 57, 50, 46, 48, 46, 50, 46, 49, 49, 40, 172, 2] := by decide

end EdgeLb.Lib.Protobuf
