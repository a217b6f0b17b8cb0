/-
  EdgeLb.Lib.Wire — byte strings written field by field and read back.

  A reader takes a value off the front of the input. `Reads r bs a` says that `r` takes
  exactly `bs` and returns `a`, whatever follows; it composes along binds as the written
  strings do along appends, so the round trip of a format is proved in the order of its
  fields. In the other direction, `Wrote r write` says that whatever `r` accepts is what
  `write` writes of the value returned, followed by what is left.
-/

import Mathlib.Tactic.Common
import Mathlib.Algebra.Group.Nat.Defs

namespace EdgeLb.Lib

abbrev Bytes := List UInt8

/-! ## Little-endian numbers -/

/-- The `n` lowest bytes of `x`, the lowest first. -/
def leBytes : Nat → Nat → Bytes
  | 0, _ => []
  | n + 1, x => UInt8.ofNat x :: leBytes n (x / 256)

def ofLeBytes : Bytes → Nat
  | [] => 0
  | b :: bs => b.toNat + 256 * ofLeBytes bs

@[simp] theorem length_leBytes (n x : Nat) : (leBytes n x).length = n := by
  induction n generalizing x with
  | zero => rfl
  | succ n ih => simp [leBytes, ih]

theorem ofLeBytes_leBytes {n x : Nat} (h : x < 256 ^ n) : ofLeBytes (leBytes n x) = x := by
  induction n generalizing x with
  | zero =>
    rw [Nat.pow_zero] at h
    simp [leBytes, ofLeBytes]
    omega
  | succ n ih =>
    have hdiv : x / 256 < 256 ^ n := by
      rw [Nat.div_lt_iff_lt_mul (by decide), ← Nat.pow_succ]
      exact h
    simp only [leBytes, ofLeBytes, ih hdiv, UInt8.toNat_ofNat']
    omega

theorem leBytes_ofLeBytes (bs : Bytes) : leBytes bs.length (ofLeBytes bs) = bs := by
  induction bs with
  | nil => rfl
  | cons b bs ih =>
    have hb := b.toNat_lt
    have hhead : UInt8.ofNat (b.toNat + 256 * ofLeBytes bs) = b := by
      apply UInt8.toNat.inj
      rw [UInt8.toNat_ofNat']
      omega
    have htail : (b.toNat + 256 * ofLeBytes bs) / 256 = ofLeBytes bs := by omega
    rw [List.length_cons, ofLeBytes, leBytes, hhead, htail, ih]

theorem ofLeBytes_lt (bs : Bytes) : ofLeBytes bs < 256 ^ bs.length := by
  induction bs with
  | nil => decide
  | cons b bs ih =>
    have hb := b.toNat_lt
    rw [ofLeBytes, List.length_cons, Nat.pow_succ]
    omega

/-! ## Readers -/

abbrev ByteReader := StateT Bytes (Except String)

/-- The next `n` bytes. -/
def readBytes (truncated : String) (n : Nat) : ByteReader Bytes := fun bs =>
  if n ≤ bs.length then .ok (bs.take n, bs.drop n) else .error truncated

def readLe (truncated : String) (n : Nat) : ByteReader Nat := do
  return ofLeBytes (← readBytes truncated n)

/-- `r` `n` times in a row. -/
def readMany {α : Type} (r : ByteReader α) : Nat → ByteReader (List α)
  | 0 => pure []
  | n + 1 => do
    let a ← r
    return a :: (← readMany r n)

/-- `r` takes exactly `bs` off the input and returns `a`. -/
def Reads {α : Type} (r : ByteReader α) (bs : Bytes) (a : α) : Prop := ∀ rest, r.run (bs ++ rest) = .ok (a, rest)

variable {α β : Type}

theorem Reads.pure (a : α) : Reads (pure a) [] a := fun _ => rfl

variable {f : α → ByteReader β} {r : ByteReader α} {bs rest : Bytes}

theorem Reads.bind {bs bs' : Bytes} {a : α} {b : β} (hr : Reads r bs a)
    (hf : Reads (f a) bs' b) : Reads (r >>= f) (bs ++ bs') b := by
  intro rest
  have h1 := hr (bs' ++ rest)
  have h2 := hf rest
  rw [List.append_assoc, StateT.run_bind, h1]
  exact h2

/-- A step that takes nothing, before another. -/
theorem Reads.nil_bind {bs : Bytes} {a : α} {b : β} (hr : Reads r [] a)
    (hf : Reads (f a) bs b) : Reads (r >>= f) bs b :=
  Reads.bind hr hf

/-- A step that takes nothing, after another. -/
theorem Reads.bind_nil {bs : Bytes} {a : α} {b : β} (hr : Reads r bs a)
    (hf : Reads (f a) [] b) : Reads (r >>= f) bs b := by
  have h := Reads.bind hr hf
  rwa [List.append_nil] at h

theorem Reads.map {bs : Bytes} {a : α} (f : α → β) (hr : Reads r bs a) :
    Reads (r >>= fun a => Pure.pure (f a)) bs (f a) :=
  Reads.bind_nil hr (Reads.pure (f a))

theorem Reads.lift {x : Except String α} {a : α} (h : x = .ok a) : Reads (liftM x) [] a := by
  subst h
  exact fun _ => rfl

theorem reads_bytes (truncated : String) (bs : Bytes) : Reads (readBytes truncated bs.length) bs bs := by
  intro rest
  show readBytes truncated bs.length (bs ++ rest) = _
  rw [readBytes, if_pos (by simp), List.take_left, List.drop_left]

theorem reads_le (truncated : String) {n x : Nat} (h : x < 256 ^ n) : Reads (readLe truncated n) (leBytes n x) x := by
  have hb := reads_bytes truncated (leBytes n x)
  rw [length_leBytes] at hb
  have hm := Reads.map ofLeBytes hb
  rwa [ofLeBytes_leBytes h] at hm

theorem Reads.many {r : ByteReader β} {write : α → Bytes} {read : α → β} (h : ∀ a, Reads r (write a) (read a))
    (as : List α) : Reads (readMany r as.length) (as.flatMap write) (as.map read) := by
  induction as with
  | nil => exact Reads.pure []
  | cons a as ih =>
    rw [List.flatMap_cons]
    exact Reads.bind (h a) (Reads.map _ ih)

/-! ## What was accepted -/

theorem run_bind_ok {b : β} :
    (r >>= f).run bs = .ok (b, rest) ↔ ∃ a mid, r.run bs = .ok (a, mid) ∧ (f a).run mid = .ok (b, rest) := by
  rw [StateT.run_bind]
  cases h : r.run bs with
  | error e => simp [bind, Except.bind]
  | ok v =>
    obtain ⟨a, mid⟩ := v
    simp [bind, Except.bind]

theorem run_lift_ok {x : Except String α} {a : α} :
    (liftM x : ByteReader α).run bs = .ok (a, rest) ↔ x = .ok a ∧ rest = bs := by
  cases x with
  | error e => simp [liftM, monadLift, MonadLift.monadLift, StateT.lift, StateT.run, bind, Except.bind]
  | ok v =>
    simp [liftM, monadLift, MonadLift.monadLift, StateT.lift, StateT.run, bind, Except.bind, pure, Except.pure]
    exact fun _ => eq_comm

theorem run_pure_ok {a b : α} : (pure a : ByteReader α).run bs = .ok (b, rest) ↔ a = b ∧ bs = rest := by
  show Except.ok (a, bs) = .ok (b, rest) ↔ _
  rw [Except.ok.injEq, Prod.mk.injEq]

/-- Whatever `r` accepts begins with what `write` writes of the value returned. -/
def Wrote (r : ByteReader α) (write : α → Bytes) : Prop :=
  ∀ bs a rest, r.run bs = .ok (a, rest) → bs = write a ++ rest

theorem readBytes_ok {truncated : String} {n : Nat} {bs taken rest : Bytes}
    (h : (readBytes truncated n).run bs = .ok (taken, rest)) : bs = taken ++ rest ∧ taken.length = n := by
  have hrun : readBytes truncated n bs = .ok (taken, rest) := h
  unfold readBytes at hrun
  split at hrun
  next hle =>
    obtain ⟨rfl, rfl⟩ := Prod.mk.inj (Except.ok.inj hrun)
    exact ⟨(List.take_append_drop n bs).symm, List.length_take_of_le hle⟩
  next => cases hrun

theorem readLe_ok {truncated : String} {n x : Nat}
    (h : (readLe truncated n).run bs = .ok (x, rest)) : bs = leBytes n x ++ rest ∧ x < 256 ^ n := by
  obtain ⟨taken, mid, htaken, hpure⟩ := run_bind_ok.mp h
  obtain ⟨rfl, rfl⟩ := run_pure_ok.mp hpure
  obtain ⟨rfl, rfl⟩ := readBytes_ok htaken
  rw [leBytes_ofLeBytes]
  exact ⟨rfl, ofLeBytes_lt taken⟩

theorem Wrote.many {write : α → Bytes} (h : Wrote r write) {n : Nat} {as : List α}
    (hrun : (readMany r n).run bs = .ok (as, rest)) : bs = as.flatMap write ++ rest ∧ as.length = n := by
  induction n generalizing bs as with
  | zero =>
    obtain ⟨rfl, rfl⟩ := run_pure_ok.mp hrun
    exact ⟨rfl, rfl⟩
  | succ n ih =>
    obtain ⟨a, mid, hhead, htail⟩ := run_bind_ok.mp hrun
    obtain ⟨tail, mid', hmany, hpure⟩ := run_bind_ok.mp htail
    obtain ⟨rfl, rfl⟩ := run_pure_ok.mp hpure
    obtain ⟨rfl, hlen⟩ := ih hmany
    rw [h _ _ _ hhead, List.flatMap_cons, List.append_assoc, List.length_cons, hlen]
    exact ⟨rfl, rfl⟩

end EdgeLb.Lib
