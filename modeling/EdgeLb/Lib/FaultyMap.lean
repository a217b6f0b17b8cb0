/-
  EdgeLb.Lib.FaultyMap — a kernel hash map behind system calls, any of which may fail.

  A `Host` is the map as it stands, the calls made so far, and which calls the environment
  lets fail. The map itself refuses a new key when it is full and the removal of a key it
  does not hold. A call that fails changes nothing.

  `Logged inv ok`: the map was in `inv` at every call and is so now, and every call was
  `ok` where it was made. A procedure whose calls are all `ok` keeps it, whatever fails.
-/

import Mathlib.Data.List.AList

namespace EdgeLb.Lib.FaultyMap

variable {κ ν : Type}

def ENOENT : Nat := 2
def E2BIG : Nat := 7

inductive Op (κ ν : Type) where
  | iter
  | insert (key : κ) (value : ν)
  | remove (key : κ)

structure Call (κ ν : Type) where
  before : AList fun _ : κ => ν
  op : Op κ ν
  /-- What the environment made of the call. -/
  fault : Option Nat
  /-- What the caller was told. -/
  error : Option Nat

structure Host (κ ν : Type) where
  capacity : Nat
  faults : Nat → Option Nat
  map : AList fun _ : κ => ν
  calls : List (Call κ ν) := []

/-- The `?` after a call. -/
def andThen (r : Option Nat × Host κ ν) (next : Host κ ν → Option Nat × Host κ ν) : Option Nat × Host κ ν :=
  if r.1 = none then next r.2 else r

variable {r : Option Nat × Host κ ν} {h : Host κ ν} {op : Op κ ν}

theorem andThen_of_ok (hr : r.1 = none) (next : Host κ ν → Option Nat × Host κ ν) :
    andThen r next = next r.2 := if_pos hr

theorem andThen_of_failed (hr : r.1 ≠ none) (next : Host κ ν → Option Nat × Host κ ν) : andThen r next = r := if_neg hr

theorem andThen_eq_ok {next : Host κ ν → Option Nat × Host κ ν}
    (h : (andThen r next).1 = none) : r.1 = none ∧ andThen r next = next r.2 := by
  by_cases hr : r.1 = none
  · exact ⟨hr, andThen_of_ok hr next⟩
  · rw [andThen_of_failed hr] at h
    exact absurd h hr

variable [DecidableEq κ]

def refusal (capacity : Nat) (m : AList fun _ : κ => ν) : Op κ ν → Option Nat
  | .iter => none
  | .insert k _ => if k ∉ m ∧ capacity ≤ m.entries.length then some E2BIG else none
  | .remove k => if k ∈ m then none else some ENOENT

def effect (m : AList fun _ : κ => ν) : Op κ ν → AList fun _ : κ => ν
  | .iter => m
  | .insert k v => m.insert k v
  | .remove k => m.erase k

def Host.fault (h : Host κ ν) : Option Nat := h.faults h.calls.length

def Host.error (h : Host κ ν) (op : Op κ ν) : Option Nat := h.fault <|> refusal h.capacity h.map op

/-- One system call, and the host after it. -/
def Host.call (h : Host κ ν) (op : Op κ ν) : Option Nat × Host κ ν :=
  (h.error op,
    { h with
      map := if h.error op = none then effect h.map op else h.map
      calls := h.calls ++ [⟨h.map, op, h.fault, h.error op⟩] })

@[simp] theorem call_calls (h : Host κ ν) (op : Op κ ν) :
    (h.call op).2.calls = h.calls ++ [⟨h.map, op, h.fault, h.error op⟩] := rfl

theorem call_map_ok (herror : h.error op = none) : (h.call op).2.map = effect h.map op := if_pos herror

theorem call_map_failed (herror : h.error op ≠ none) : (h.call op).2.map = h.map :=
  if_neg herror

/-! ## What a procedure keeps -/

/-- The map in `inv` at every call, the call `ok` there and refused only by the environment. -/
structure Logged (inv : AList (fun _ : κ => ν) → Prop) (ok : AList (fun _ : κ => ν) → Op κ ν → Prop)
    (h : Host κ ν) : Prop where
  map : inv h.map
  calls : ∀ c ∈ h.calls, inv c.before ∧ ok c.before c.op ∧ c.error = c.fault

theorem Logged.call {inv : AList (fun _ : κ => ν) → Prop} {ok : AList (fun _ : κ => ν) → Op κ ν → Prop}
    (keep : ∀ m op, inv m → ok m op → inv (effect m op)) (hlog : Logged inv ok h) (hok : ok h.map op)
    (hrefuse : refusal h.capacity h.map op = none) : Logged inv ok (h.call op).2 where
  map := by
    by_cases herror : h.error op = none
    · rw [call_map_ok herror]
      exact keep h.map op hlog.map hok
    · rw [call_map_failed herror]
      exact hlog.map
  calls c hc := by
    rcases List.mem_append.mp hc with hc | hc
    · exact hlog.calls c hc
    · obtain rfl := List.mem_singleton.mp hc
      refine ⟨hlog.map, hok, ?_⟩
      change (h.fault <|> refusal h.capacity h.map op) = h.fault
      rw [hrefuse]
      cases h.fault <;> rfl

/-- No call on `op`s of the kind `p` failed. -/
def Host.Clean (h : Host κ ν) (p : Op κ ν → Prop) : Prop := ∀ c ∈ h.calls, p c.op → c.error = none

omit [DecidableEq κ] in
theorem Host.Clean.of_all (hclean : h.Clean fun _ => True) (p : Op κ ν → Prop) : h.Clean p :=
  fun c hc _ => hclean c hc trivial

theorem clean_call {p : Op κ ν → Prop} : (h.call op).2.Clean p ↔ h.Clean p ∧ (p op → h.error op = none) := by
  simp only [Host.Clean, call_calls, List.mem_append, List.mem_singleton]
  constructor
  · intro hclean
    exact ⟨fun c hc => hclean c (.inl hc), fun hp => hclean _ (.inr rfl) hp⟩
  · rintro ⟨hclean, hop⟩ c (hc | rfl) hp
    · exact hclean c hc hp
    · exact hop hp

end EdgeLb.Lib.FaultyMap
