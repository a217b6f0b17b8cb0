/-
  EdgeLb.Lib.Text — the string functions of the Rust standard library that configuration
  code leans on: trimming, ASCII case folding, splitting and decimal parsing.

  Strings are processed as lists of characters, by structural recursion, so that they
  evaluate in the kernel.
-/

import Mathlib.Data.List.DropRight

namespace EdgeLb.Lib

/-- `char::is_whitespace`: the Unicode `White_Space` property. -/
def isWhitespace (c : Char) : Bool :=
  let n := c.toNat
  (9 ≤ n && n ≤ 13) || n == 0x20 || n == 0x85 || n == 0xa0 || n == 0x1680 || (0x2000 ≤ n && n ≤ 0x200a) ||
    n == 0x2028 || n == 0x2029 || n == 0x202f || n == 0x205f || n == 0x3000

/-- `str::trim`. -/
def trim (s : String) : String :=
  String.ofList (((s.toList.dropWhile isWhitespace).reverse.dropWhile isWhitespace).reverse)

/-- Trimming the end leaves the front as it is. -/
theorem trim_trim (s : String) : trim (trim s) = trim s := by
  let p := isWhitespace
  have hfront (cs : List Char) : ((cs.dropWhile p).rdropWhile p).dropWhile p = (cs.dropWhile p).rdropWhile p := by
    obtain ⟨rest, hrest⟩ := List.rdropWhile_prefix p (cs.dropWhile p)
    cases hkept : (cs.dropWhile p).rdropWhile p with
    | nil => rfl
    | cons c kept =>
      -- the first character kept is the first of the front-trimmed text
      rw [hkept] at hrest
      have hc : p c = false := by
        have hpos : 0 < (cs.dropWhile p).length := by rw [← hrest]; simp
        have hnot := List.dropWhile_get_zero_not p cs hpos
        simpa [← hrest] using hnot
      simp [hc]
  show String.ofList (((String.ofList ((s.toList.dropWhile p).rdropWhile p)).toList.dropWhile p).rdropWhile p) = _
  rw [String.toList_ofList, hfront, List.rdropWhile_idempotent]
  rfl

theorem trim_eq_self {s : String} (h : ∀ c ∈ s.toList, isWhitespace c = false) : trim s = s := by
  have hkeep (cs : List Char) (hcs : ∀ c ∈ cs, isWhitespace c = false) : cs.dropWhile isWhitespace = cs := by
    cases cs with
    | nil => rfl
    | cons c cs => simp [hcs c List.mem_cons_self]
  rw [trim, hkeep s.toList h, hkeep s.toList.reverse fun c hc => h c (List.mem_reverse.mp hc), List.reverse_reverse,
    String.ofList_toList]

/-- Whitespace at the end makes no difference. -/
theorem trim_push {c : Char} (hc : isWhitespace c = true) (s : String) : trim (s.push c) = trim s := by
  unfold trim
  rw [String.toList_push, List.dropWhile_append]
  by_cases hblank : ∀ d ∈ s.toList, isWhitespace d = true
  · have hnil : s.toList.dropWhile isWhitespace = [] := List.dropWhile_eq_nil_iff.mpr hblank
    simp [hnil, hc]
  · have hne : s.toList.dropWhile isWhitespace ≠ [] := fun h => hblank (List.dropWhile_eq_nil_iff.mp h)
    simp [hne, hc]

/-- `s.trim().is_empty()`. -/
def isBlank (s : String) : Bool := s.toList.all isWhitespace

theorem trim_of_isBlank {s : String} (h : isBlank s = true) : trim s = "" := by
  have hall : ∀ c ∈ s.toList, isWhitespace c = true := by simpa [isBlank] using h
  have hnil : s.toList.dropWhile isWhitespace = [] := List.dropWhile_eq_nil_iff.mpr hall
  simp [trim, hnil]

/-- A text that trimming leaves something of is not blank, and neither is what is left. -/
theorem isBlank_trim {s : String} (h : trim s ≠ "") : isBlank (trim s) = false := by
  by_contra hblank
  apply h
  rw [← trim_trim]
  exact trim_of_isBlank (by simpa using hblank)

def lowerAscii (c : Char) : Char := if 'A' ≤ c ∧ c ≤ 'Z' then Char.ofNat (c.toNat + 32) else c

/-- `str::to_ascii_lowercase`. -/
def toAsciiLowercase (s : String) : String := String.ofList (s.toList.map lowerAscii)

/-- `str::eq_ignore_ascii_case`. -/
def eqIgnoreAsciiCase (s t : String) : Bool := s.toList.map lowerAscii == t.toList.map lowerAscii

def startsWith (s pre : String) : Bool := pre.toList.isPrefixOf s.toList

theorem startsWith_iff {s pre : String} : startsWith s pre = true ↔ ∃ rest, s.toList = pre.toList ++ rest := by
  unfold startsWith
  rw [List.isPrefixOf_iff_prefix]
  exact ⟨fun ⟨rest, h⟩ => ⟨rest, h.symm⟩, fun ⟨rest, h⟩ => ⟨rest, h.symm⟩⟩

/-- `str::strip_prefix`. -/
def stripPrefix (pre s : String) : Option String :=
  if startsWith s pre then some (String.ofList (s.toList.drop pre.length)) else none

/-- `str::trim_start_matches`: the text in front is taken off as often as it stands there. -/
def trimStartMatches (pre s : String) : String := go s.length s.toList
where
  go : Nat → List Char → String
    | fuel + 1, cs => if pre.toList.isPrefixOf cs then go fuel (cs.drop pre.length) else String.ofList cs
    | 0, cs => String.ofList cs

/-- `str::contains`. -/
def containsText (s part : String) : Bool := s.toList.tails.any fun cs => part.toList.isPrefixOf cs

def containsChar (s : String) (c : Char) : Bool := s.toList.contains c

/-- `str::split_once` on one character. -/
def splitOnce (c : Char) : List Char → Option (List Char × List Char)
  | [] => none
  | x :: xs => if x = c then some ([], xs) else (splitOnce c xs).map fun (a, b) => (x :: a, b)

theorem splitOnce_append {c : Char} {cs rest : List Char} (h : c ∉ cs) :
    splitOnce c (cs ++ c :: rest) = some (cs, rest) := by
  induction cs with
  | nil => simp [splitOnce]
  | cons x cs ih =>
    have hx : x ≠ c := fun heq => h (heq ▸ List.mem_cons_self)
    have hcs : c ∉ cs := fun hmem => h (List.mem_cons_of_mem x hmem)
    simp [splitOnce, ih hcs, hx]

/-- `str::rsplit_once` on one character. -/
def rsplitOnce (c : Char) (cs : List Char) : Option (List Char × List Char) :=
  (splitOnce c cs.reverse).map fun (a, b) => (b.reverse, a.reverse)

def decDigit? (c : Char) : Option Nat := if '0' ≤ c ∧ c ≤ '9' then some (c.toNat - '0'.toNat) else none

theorem decDigit?_isSome {c : Char} (h : (decDigit? c).isSome = true) : '0' ≤ c ∧ c ≤ '9' := by
  unfold decDigit? at h
  split at h
  · next hc => exact hc
  · cases h

theorem isWhitespace_digit {c : Char} (h : (decDigit? c).isSome = true) : isWhitespace c = false := by
  obtain ⟨hlow, hhigh⟩ := decDigit?_isSome h
  have hlow : 48 ≤ c.toNat := hlow
  have hhigh : c.toNat ≤ 57 := hhigh
  simp only [isWhitespace, Bool.or_eq_false_iff, Bool.and_eq_false_iff, decide_eq_false_iff_not, beq_eq_false_iff_ne]
  omega

/-- The value of a run of decimal digits; `none` when it is empty or holds anything else. -/
def decimal? (cs : List Char) : Option Nat :=
  if cs.isEmpty then none else cs.foldlM (fun acc c => (decDigit? c).map (acc * 10 + ·)) 0

/-- `str::parse` for an unsigned type with the given bound: an optional plus, then digits. -/
def parseUnsigned (bound : Nat) (cs : List Char) : Option Nat :=
  (decimal? (if cs.head? = some '+' then cs.tail else cs)).filter (· < bound)

example : trim "  none " = "none" := by decide
example : trimStartMatches "/a/" "/a//a/b" = "b" ∧ stripPrefix "/a/" "/a//a/b" = some "/a/b" := by decide
example : parseUnsigned 65536 "+8080".toList = some 8080 ∧ parseUnsigned 65536 "65536".toList = none := by decide

end EdgeLb.Lib
