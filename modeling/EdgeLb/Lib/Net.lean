/-
  EdgeLb.Lib.Net — IP and socket addresses and their text, as `std::net` reads and prints
  them.

  An IPv4 address is its 32-bit number, an IPv6 address its eight 16-bit groups. The
  readers take a list of characters and return what is left of it, as the parser of
  `std::net` does; a whole string parses when nothing is left.
-/

import EdgeLb.Lib.Text
import Mathlib.Algebra.Group.Nat.Defs

namespace EdgeLb.Lib

inductive IpAddr
  | v4 (bits : UInt32)
  | v6 (groups : Vector UInt16 8)
  deriving DecidableEq, Repr

def IpAddr.isUnspecified : IpAddr → Bool
  | .v4 bits => bits == 0
  | .v6 groups => groups == Vector.replicate 8 0

def IpAddr.isLoopback : IpAddr → Bool
  | .v4 bits => bits >>> 24 == 127
  | .v6 groups => groups == #v[0, 0, 0, 0, 0, 0, 0, 1]

def IpAddr.isV4 : IpAddr → Bool
  | .v4 _ => true
  | .v6 _ => false

/-! ## Reading -/

abbrev Reader (α : Type) := List Char → Option (α × List Char)

/-- The longest run of digits at the front, at most `max` of them. -/
def takeDigits (digit : Char → Option Nat) : Nat → List Char → List Nat × List Char
  | 0, cs => ([], cs)
  | _, [] => ([], [])
  | max + 1, c :: cs =>
    match digit c with
    | none => ([], c :: cs)
    | some d => let (ds, rest) := takeDigits digit max cs; (d :: ds, rest)

/-- `read_number`: up to `max` digits below `bound`; a digit more fails the read. -/
def readNumber (digit : Char → Option Nat) (radix max bound : Nat) (allowZeroPrefix : Bool) : Reader Nat := fun cs =>
  let (ds, rest) := takeDigits digit max cs
  let value := ds.foldl (fun acc d => acc * radix + d) 0
  if ds.isEmpty ∨ (rest.head?.bind digit).isSome ∨ bound ≤ value then none
  else if !allowZeroPrefix ∧ ds.head? = some 0 ∧ 1 < ds.length then none
  else some (value, rest)

def readChar (c : Char) : Reader Unit
  | [] => none
  | x :: xs => if x = c then some ((), xs) else none

/-- `read_separator`: all but the first item follow a separator. -/
def readSeparator {α : Type} (sep : Char) (index : Nat) (inner : Reader α) : Reader α := fun cs =>
  if index = 0 then inner cs else (readChar sep cs).bind fun (_, cs) => inner cs

def readIpv4 : Reader UInt32 := fun cs => do
  let octet := readNumber decDigit? 10 3 256 false
  let (a, cs) ← readSeparator '.' 0 octet cs
  let (b, cs) ← readSeparator '.' 1 octet cs
  let (c, cs) ← readSeparator '.' 2 octet cs
  let (d, cs) ← readSeparator '.' 3 octet cs
  some (UInt32.ofNat (((a * 256 + b) * 256 + c) * 256 + d), cs)

def hexDigit? (c : Char) : Option Nat :=
  if '0' ≤ c ∧ c ≤ '9' then some (c.toNat - '0'.toNat)
  else if 'a' ≤ c ∧ c ≤ 'f' then some (c.toNat - 'a'.toNat + 10)
  else if 'A' ≤ c ∧ c ≤ 'F' then some (c.toNat - 'A'.toNat + 10)
  else none

/-- `read_groups`: up to `limit` groups, the last two of which may be an IPv4 address; the
    groups, whether they end in one, and the rest. -/
def readGroups : Nat → Nat → List Char → List UInt16 × Bool × List Char
  | 0, _, cs => ([], false, cs)
  | limit + 1, index, cs =>
    match (if 0 < limit then readSeparator ':' index readIpv4 cs else none) with
    | some (v4, rest) => ([(v4 >>> 16).toUInt16, v4.toUInt16], true, rest)
    | none =>
      match readSeparator ':' index (readNumber hexDigit? 16 4 65536 true) cs with
      | none => ([], false, cs)
      | some (g, rest) =>
        let (gs, ipv4, rest) := readGroups limit (index + 1) rest
        (UInt16.ofNat g :: gs, ipv4, rest)

def groupsOf (gs : List UInt16) : Vector UInt16 8 := Vector.ofFn fun i => gs.getD i.val 0

def readIpv6 : Reader (Vector UInt16 8) := fun cs =>
  let (head, headIpv4, rest) := readGroups 8 0 cs
  if head.length = 8 then some (groupsOf head, rest)
  else if headIpv4 then none
  else do
    let (_, rest) ← readChar ':' rest
    let (_, rest) ← readChar ':' rest
    let (tail, _, rest) := readGroups (8 - (head.length + 1)) 0 rest
    some (groupsOf (head ++ List.replicate (8 - head.length - tail.length) 0 ++ tail), rest)

/-- The reader consumes the whole text. -/
def whole {α : Type} (r : Reader α) (cs : List Char) : Option α :=
  match r cs with
  | some (a, []) => some a
  | _ => none

/-- `str::parse::<Ipv4Addr>`: longer texts are refused outright. -/
def parseIpv4 (s : String) : Option UInt32 := if 15 < s.length then none else whole readIpv4 s.toList

def readIp : Reader IpAddr := fun cs =>
  match readIpv4 cs with
  | some (a, rest) => some (.v4 a, rest)
  | none => (readIpv6 cs).map fun (a, rest) => (.v6 a, rest)

/-- `str::parse::<IpAddr>`. -/
def parseIp (s : String) : Option IpAddr := whole readIp s.toList

/-- `str::parse::<SocketAddr>`, without IPv6 scope ids: the address and the port. -/
def parseSocketAddr (s : String) : Option (IpAddr × Nat) :=
  let port : Reader Nat := fun cs => readNumber decDigit? 10 cs.length 65536 true cs
  match readIpv4 s.toList with
  | some (a, rest) => (whole (readSeparator ':' 1 port) rest).map fun p => (.v4 a, p)
  | none => do
    let (_, cs) ← readChar '[' s.toList
    let (a, cs) ← readIpv6 cs
    let (_, cs) ← readChar ']' cs
    (whole (readSeparator ':' 1 port) cs).map fun p => (.v6 a, p)

/-! ## Printing -/

def octetOf (bits : UInt32) (i : Nat) : Nat := bits.toNat / 256 ^ (3 - i) % 256

def showIpv4 (bits : UInt32) : String :=
  s!"{octetOf bits 0}.{octetOf bits 1}.{octetOf bits 2}.{octetOf bits 3}"

def hexChar (d : Nat) : Char := if d < 10 then Char.ofNat (48 + d) else Char.ofNat (87 + d)

/-- A group in lower-case hex without leading zeros. -/
def showGroup (g : UInt16) : String :=
  let n := g.toNat
  let digits := [n / 4096, n / 256 % 16, n / 16 % 16, n % 16].dropWhile (· == 0)
  String.ofList ((if digits.isEmpty then [0] else digits).map hexChar)

/-- The first longest run of zero groups, as start and length. -/
def longestZeros (gs : List UInt16) : Nat × Nat :=
  (List.range 8).foldl (fun best i =>
    let len := ((gs.drop i).takeWhile (· == 0)).length
    if best.2 < len then (i, len) else best) (0, 0)

variable (groups : Vector UInt16 8)

def showIpv6 : String :=
  let gs := groups.toList
  let join (gs : List UInt16) : String := String.intercalate ":" (gs.map showGroup)
  if gs.take 6 = [0, 0, 0, 0, 0, 0xffff] then
    "::ffff:" ++ showIpv4 (((groups.get 6).toUInt32 <<< 16) ||| (groups.get 7).toUInt32)
  else
    let (start, len) := longestZeros gs
    if 1 < len then join (gs.take start) ++ "::" ++ join (gs.drop (start + len)) else join gs

/-- `IpAddr::to_string`. -/
def showIp : IpAddr → String
  | .v4 bits => showIpv4 bits
  | .v6 groups => showIpv6 groups

/-! ## What is printed is read -/

/-- The decimal digits of an octet. -/
def octetDigits (n : Nat) : List Nat :=
  if n < 10 then [n] else if n < 100 then [n / 10, n % 10] else [n / 100, n / 10 % 10, n % 10]

theorem octet_digits : ∀ n < 256, (toString n).toList.map decDigit? = (octetDigits n).map some := by decide +kernel

theorem digit_of_mem_octet {n : Nat} (hn : n < 256) {c : Char} (hc : c ∈ (toString n).toList) :
    (decDigit? c).isSome = true := by
  have hmem : decDigit? c ∈ (octetDigits n).map some := octet_digits n hn ▸ List.mem_map_of_mem hc
  obtain ⟨d, -, hd⟩ := List.mem_map.mp hmem
  rw [← hd]
  rfl

theorem mem_showIpv4 {bits : UInt32} {c : Char} (hc : c ∈ (showIpv4 bits).toList) :
    c = '.' ∨ (decDigit? c).isSome = true := by
  have hoctet (i : Nat) : octetOf bits i < 256 := Nat.mod_lt _ (by decide)
  have hdot : (toString ".").toList = ['.'] := rfl
  simp only [showIpv4, String.toList_append, hdot, List.mem_append, List.mem_singleton] at hc
  rcases hc with (((((hc | hc) | hc) | hc) | hc) | hc) | hc
  · exact .inr (digit_of_mem_octet (hoctet 0) hc)
  · exact .inl hc
  · exact .inr (digit_of_mem_octet (hoctet 1) hc)
  · exact .inl hc
  · exact .inr (digit_of_mem_octet (hoctet 2) hc)
  · exact .inl hc
  · exact .inr (digit_of_mem_octet (hoctet 3) hc)

/-- Digits are taken up to the first character that is none. -/
theorem takeDigits_append {digit : Char → Option Nat} {cs rest : List Char} {ds : List Nat} {max : Nat}
    (hds : cs.map digit = ds.map some) (hlen : ds.length ≤ max) (hrest : (rest.head?.bind digit) = none) :
    takeDigits digit max (cs ++ rest) = (ds, rest) := by
  induction cs generalizing ds max with
  | nil =>
    obtain rfl : ds = [] := by simpa using hds.symm
    cases max with
    | zero => rfl
    | succ max =>
      cases rest with
      | nil => rfl
      | cons c rest =>
        have hc : digit c = none := by simpa using hrest
        simp [takeDigits, hc]
  | cons c cs ih =>
    cases ds with
    | nil => simp at hds
    | cons d ds =>
      obtain ⟨hd, hds⟩ : digit c = some d ∧ cs.map digit = ds.map some := by simpa using hds
      cases max with
      | zero => simp at hlen
      | succ max =>
        have htail := ih hds (by simpa using hlen)
        simp [takeDigits, hd, htail]

theorem readOctet {n : Nat} (hn : n < 256) {rest : List Char} (hrest : (rest.head?.bind decDigit?) = none) :
    readNumber decDigit? 10 3 256 false ((toString n).toList ++ rest) = some (n, rest) := by
  have hlen : (octetDigits n).length ≤ 3 := by
    unfold octetDigits
    split
    · simp
    · split <;> simp
  have htake := takeDigits_append (octet_digits n hn) hlen hrest
  have hvalue : (octetDigits n).foldl (fun acc d => acc * 10 + d) 0 = n := by
    unfold octetDigits
    split
    · simp
    · split
      · simp
        omega
      · simp
        omega
  have hne : (octetDigits n).isEmpty = false := by
    unfold octetDigits
    split
    · rfl
    · split <;> rfl
  have hzero : ¬((octetDigits n).head? = some 0 ∧ 1 < (octetDigits n).length) := by
    unfold octetDigits
    split
    · simp
    · split
      · simp
        omega
      · simp
        omega
  simp only [readNumber, htake, hvalue, hne, hrest]
  rw [if_neg (by simp; omega), if_neg (by simpa using hzero)]

theorem readSeparator_next {α : Type} (sep : Char) {index : Nat} (h : index ≠ 0) (inner : Reader α) (cs : List Char) :
    readSeparator sep index inner (sep :: cs) = inner cs := by
  simp [readSeparator, h, readChar]

theorem readIpv4_showIpv4 (bits : UInt32) : readIpv4 (showIpv4 bits).toList = some (bits, []) := by
  let octet := readNumber decDigit? 10 3 256 false
  have hoctet (i : Nat) : octetOf bits i < 256 := Nat.mod_lt _ (by decide)
  have hdot (cs : List Char) : (('.' :: cs).head?.bind decDigit?) = none := rfl
  let text (i : Nat) : List Char := (toString (octetOf bits i)).toList
  have htext : (showIpv4 bits).toList = text 0 ++ '.' :: (text 1 ++ '.' :: (text 2 ++ '.' :: (text 3 ++ []))) := by
    simp only [showIpv4, String.toList_append, List.append_assoc, List.append_nil]
    rfl
  have hread (i : Nat) (cs : List Char) : octet (text i ++ '.' :: cs) = some (octetOf bits i, '.' :: cs) :=
    readOctet (hoctet i) (hdot cs)
  have hlast : octet (text 3 ++ []) = some (octetOf bits 3, []) := readOctet (hoctet 3) rfl
  have hsum : ((octetOf bits 0 * 256 + octetOf bits 1) * 256 + octetOf bits 2) * 256 + octetOf bits 3 = bits.toNat := by
    have hlt := bits.toNat_lt
    simp only [octetOf]
    omega
  rw [htext]
  have h0 (cs : List Char) : readSeparator '.' 0 octet (text 0 ++ '.' :: cs) = some (octetOf bits 0, '.' :: cs) :=
    (if_pos rfl).trans (hread 0 cs)
  simp only [octet] at h0 hread hlast
  simp only [readIpv4, h0, readSeparator_next '.' (by decide : (1 : Nat) ≠ 0), readSeparator_next '.' (by decide : (2 : Nat) ≠ 0),
    readSeparator_next '.' (by decide : (3 : Nat) ≠ 0), hread, hlast, Option.bind_eq_bind, Option.bind_some, hsum,
    UInt32.ofNat_toNat]

/-- An IPv4 address is read from the text it is printed as. -/
theorem parseIp_showIp (bits : UInt32) : parseIp (showIp (.v4 bits)) = some (.v4 bits) := by
  show whole readIp (showIpv4 bits).toList = _
  simp only [whole, readIp, readIpv4_showIpv4]

/-! ### IPv6 -/

theorem takeDigits_subset (digit : Char → Option Nat) (max : Nat) (cs : List Char) :
    (takeDigits digit max cs).2 ⊆ cs := by
  induction cs generalizing max with
  | nil => cases max <;> exact fun _ h => h
  | cons c cs ih =>
    cases max with
    | zero => exact fun _ h => h
    | succ max =>
      unfold takeDigits
      cases digit c with
      | none => exact fun _ h => h
      | some d => exact fun x hx => List.mem_cons_of_mem c (ih max hx)

/-- No IPv4 address is read from a text without a dot. -/
theorem readIpv4_eq_none {cs : List Char} (h : '.' ∉ cs) : readIpv4 cs = none := by
  cases hoctet : readSeparator '.' 0 (readNumber decDigit? 10 3 256 false) cs with
  | none => simp [readIpv4, hoctet]
  | some read =>
    obtain ⟨a, rest⟩ := read
    have hrest : rest = (takeDigits decDigit? 3 cs).2 := by
      simp only [readSeparator, if_true, readNumber] at hoctet
      split at hoctet
      · cases hoctet
      · split at hoctet
        · cases hoctet
        · exact (Prod.mk.inj (Option.some.inj hoctet)).2.symm
    have hnot : '.' ∉ rest := fun hmem => h (takeDigits_subset decDigit? 3 cs (hrest ▸ hmem))
    have hnext : readSeparator '.' 1 (readNumber decDigit? 10 3 256 false) rest = none := by
      cases rest with
      | nil => rfl
      | cons c rest =>
        have hc : c ≠ '.' := fun hc => hnot (hc ▸ List.mem_cons_self)
        simp [readSeparator, readChar, hc]
    simp [readIpv4, hoctet, hnext]

theorem readSeparator_ipv4_eq_none {cs : List Char} (h : '.' ∉ cs) (index : Nat) :
    readSeparator ':' index readIpv4 cs = none := by
  unfold readSeparator
  split
  · exact readIpv4_eq_none h
  · cases cs with
    | nil => rfl
    | cons c cs =>
      simp only [readChar]
      split
      · exact readIpv4_eq_none fun hmem => h (List.mem_cons_of_mem c hmem)
      · rfl

/-- The hex digits of a group. -/
def groupDigits (g : UInt16) : List Nat :=
  let digits := [g.toNat / 4096, g.toNat / 256 % 16, g.toNat / 16 % 16, g.toNat % 16].dropWhile (· == 0)
  if digits.isEmpty then [0] else digits

theorem showGroup_toList (g : UInt16) : (showGroup g).toList = (groupDigits g).map hexChar := String.toList_ofList

theorem hexDigit_hexChar : ∀ d < 16, hexDigit? (hexChar d) = some d := by decide

theorem hexChar_ne_dot : ∀ d < 16, hexChar d ≠ '.' := by decide

theorem groupDigits_lt {g : UInt16} {d : Nat} (h : d ∈ groupDigits g) : d < 16 := by
  have hg := g.toNat_lt
  simp only [groupDigits] at h
  split at h
  · simp at h
    omega
  · have hmem := (List.dropWhile_sublist _).subset h
    simp at hmem
    omega

theorem groupDigits_shape (g : UInt16) : (groupDigits g).length ≤ 4 ∧ groupDigits g ≠ [] ∧
    (groupDigits g).foldl (fun acc d => acc * 16 + d) 0 = g.toNat := by
  have hg := g.toNat_lt
  unfold groupDigits
  -- as many leading zeros as there are
  by_cases h3 : g.toNat / 4096 = 0
  · by_cases h2 : g.toNat / 256 % 16 = 0
    · by_cases h1 : g.toNat / 16 % 16 = 0
      · by_cases h0 : g.toNat % 16 = 0
        · simp [h3, h2, h1, h0]
          omega
        · simp [h3, h2, h1, h0]
          omega
      · simp [h3, h2, h1]
        omega
    · simp [h3, h2]
      omega
  · simp [h3]
    omega

theorem readGroup (g : UInt16) {rest : List Char} (hrest : (rest.head?.bind hexDigit?) = none) :
    readNumber hexDigit? 16 4 65536 true ((showGroup g).toList ++ rest) = some (g.toNat, rest) := by
  have hg := g.toNat_lt
  have hdigits : ((groupDigits g).map hexChar).map hexDigit? = (groupDigits g).map some := by
    rw [List.map_map]
    exact List.map_congr_left fun d hd => hexDigit_hexChar d (groupDigits_lt hd)
  obtain ⟨hlen, hne, hvalue⟩ := groupDigits_shape g
  have htake := takeDigits_append hdigits hlen hrest
  rw [showGroup_toList]
  simp only [readNumber, htake, hvalue, hrest]
  rw [if_neg (by simp [hne]; omega), if_neg (by simp)]

/-- Groups with a separator in front of each, the first of the text apart. -/
def groupText (index : Nat) : List UInt16 → List Char
  | [] => []
  | g :: gs => (if index = 0 then [] else [':']) ++ (showGroup g).toList ++ groupText (index + 1) gs

theorem not_mem_groupText (index : Nat) (gs : List UInt16) : '.' ∉ groupText index gs := by
  induction gs generalizing index with
  | nil => exact List.not_mem_nil
  | cons g gs ih =>
    have hgroup : '.' ∉ (showGroup g).toList := by
      rw [showGroup_toList, List.mem_map]
      rintro ⟨d, hd, hdot⟩
      exact hexChar_ne_dot d (groupDigits_lt hd) hdot
    simp only [groupText, List.mem_append, not_or]
    refine ⟨⟨?_, hgroup⟩, ih (index + 1)⟩
    split <;> decide

theorem intercalate_toList (gs : List UInt16) : (String.intercalate ":" (gs.map showGroup)).toList = groupText 0 gs := by
  have hrest (g : UInt16) (gs : List UInt16) (index : Nat) :
      (String.intercalate ":" ((g :: gs).map showGroup)).toList = (showGroup g).toList ++ groupText (index + 1) gs := by
    induction gs generalizing g index with
    | nil => simp [String.intercalate_singleton, groupText]
    | cons h gs ih =>
      have htail := ih h (index + 1)
      simp only [List.map_cons] at htail
      simp [String.intercalate_cons_cons, htail, groupText]
  cases gs with
  | nil => rfl
  | cons g gs => simpa [groupText] using hrest g gs 0

/-- The groups are read back as far as they go. -/
theorem readGroups_groupText {gs : List UInt16} {limit index : Nat} {rest : List Char} (hlen : gs.length ≤ limit)
    (hdot : '.' ∉ rest) (hrest : (rest.head?.bind hexDigit?) = none) (hend : gs.length = limit ∨
      readSeparator ':' (index + gs.length) (readNumber hexDigit? 16 4 65536 true) rest = none) :
    readGroups limit index (groupText index gs ++ rest) = (gs, false, rest) := by
  induction gs generalizing limit index with
  | nil =>
    cases limit with
    | zero => rfl
    | succ limit =>
      have hnone : readSeparator ':' index (readNumber hexDigit? 16 4 65536 true) rest = none := by simpa using hend
      simp [readGroups, groupText, readSeparator_ipv4_eq_none hdot, hnone]
  | cons g gs ih =>
    cases limit with
    | zero => simp at hlen
    | succ limit =>
      have hnext : ((groupText (index + 1) gs ++ rest).head?.bind hexDigit?) = none := by
        cases gs with
        | nil => exact hrest
        | cons h gs => rfl
      have hgroup : readSeparator ':' index (readNumber hexDigit? 16 4 65536 true) (groupText index (g :: gs) ++ rest) =
          some (g.toNat, groupText (index + 1) gs ++ rest) := by
        have hread := readGroup g hnext
        by_cases h0 : index = 0
        · simp [readSeparator, groupText, h0] at hread ⊢
          exact hread
        · simp [readSeparator, groupText, h0, readChar] at hread ⊢
          exact hread
      have hall : '.' ∉ groupText index (g :: gs) ++ rest := by
        simp only [List.mem_append, not_or]
        exact ⟨not_mem_groupText index (g :: gs), hdot⟩
      have hend' : gs.length = limit ∨
          readSeparator ':' (index + 1 + gs.length) (readNumber hexDigit? 16 4 65536 true) rest = none := by
        rcases hend with hend | hend
        · exact .inl (by simpa using hend)
        · refine .inr ?_
          rw [← hend]
          congr 1
          simp
          omega
      have htail := ih (by simpa using hlen) hend'
      unfold readGroups
      simp [readSeparator_ipv4_eq_none hall, hgroup, htail]

/-- The run is made of zeros. -/
theorem longestZeros_run (gs : List UInt16) :
    ((gs.drop (longestZeros gs).1).take (longestZeros gs).2) = List.replicate (longestZeros gs).2 0 ∧
      ((longestZeros gs).2 = 0 ∨ (longestZeros gs).1 + (longestZeros gs).2 ≤ gs.length) := by
  let Run (best : Nat × Nat) : Prop := best.2 = 0 ∨ best.2 = ((gs.drop best.1).takeWhile (· == 0)).length
  have hrun : Run (longestZeros gs) := by
    unfold longestZeros
    refine List.foldlRecOn (motive := Run) _ _ (.inl rfl) fun best hbest i _ => ?_
    simp only
    split
    · exact .inr rfl
    · exact hbest
  rcases hrun with hzero | hlen
  · simp [hzero]
  · have htake : (gs.drop (longestZeros gs).1).take (longestZeros gs).2 =
        (gs.drop (longestZeros gs).1).takeWhile (· == 0) := by
      rw [hlen]
      exact (List.prefix_iff_eq_take.mp (List.takeWhile_prefix _)).symm
    refine ⟨?_, ?_⟩
    · rw [htake, List.eq_replicate_iff]
      refine ⟨hlen.symm, fun g hg => ?_⟩
      simpa using List.mem_takeWhile_imp hg
    · have hle := (List.takeWhile_prefix (p := (· == (0 : UInt16))) (l := gs.drop (longestZeros gs).1)).length_le
      rw [← hlen, List.length_drop] at hle
      omega

theorem groupsOf_toList : groupsOf groups.toList = groups := by
  unfold groupsOf
  ext i hi
  simp

theorem readIpv6_groups {groups : Vector UInt16 8} (start len : Nat) (hlen : 0 < len) (hle : start + len ≤ 8)
    (hzeros : (groups.toList.drop start).take len = List.replicate len 0) :
    readIpv6 (groupText 0 (groups.toList.take start) ++
      ':' :: ':' :: groupText 0 (groups.toList.drop (start + len))) = some (groups, []) := by
  have hall : groups.toList.length = 8 := by simp
  have hhead : (groups.toList.take start).length = start := by simp; omega
  have htail : (groups.toList.drop (start + len)).length = 8 - (start + len) := by simp
  have hcolon (index : Nat) (cs : List Char) :
      readSeparator ':' index (readNumber hexDigit? 16 4 65536 true) (':' :: ':' :: cs) = none := by
    unfold readSeparator
    split
    · rfl
    · rfl
  have hempty (index : Nat) : readSeparator ':' index (readNumber hexDigit? 16 4 65536 true) [] = none := by
    unfold readSeparator
    split
    · rfl
    · rfl
  have hfirst : readGroups 8 0 (groupText 0 (groups.toList.take start) ++
      ':' :: ':' :: groupText 0 (groups.toList.drop (start + len))) =
      (groups.toList.take start, false, ':' :: ':' :: groupText 0 (groups.toList.drop (start + len))) :=
    readGroups_groupText (by omega) (by simpa using not_mem_groupText 0 (groups.toList.drop (start + len))) rfl
      (.inr (hcolon _ _))
  have hsecond : readGroups (8 - (start + 1)) 0 (groupText 0 (groups.toList.drop (start + len)) ++ []) =
      (groups.toList.drop (start + len), false, []) :=
    readGroups_groupText (by omega) (by simp) rfl (.inr (hempty _))
  rw [List.append_nil] at hsecond
  have hparts : groups.toList.take start ++ List.replicate (8 - start - (8 - (start + len))) 0 ++
      groups.toList.drop (start + len) = groups.toList := by
    have hcount : 8 - start - (8 - (start + len)) = len := by omega
    rw [hcount, ← hzeros, List.append_assoc, ← List.drop_drop, List.take_append_drop, List.take_append_drop]
  have hne : start ≠ 8 := by omega
  simp only [readIpv6, hfirst, hhead, hne, if_false, readChar, if_true, Option.bind_eq_bind, Option.bind_some,
    hsecond, htail, hparts, groupsOf_toList, Bool.false_eq_true]

theorem readIpv6_all : readIpv6 (groupText 0 groups.toList) = some (groups, []) := by
  have hread : readGroups 8 0 (groupText 0 groups.toList ++ []) = (groups.toList, false, []) :=
    readGroups_groupText (by simp) (by simp) rfl (.inl (by simp))
  rw [List.append_nil] at hread
  simp [readIpv6, hread, groupsOf_toList]

theorem high_group (a b : UInt16) : (((a.toUInt32 <<< 16) ||| b.toUInt32) >>> 16).toUInt16 = a := by
  apply UInt16.toBitVec_inj.mp
  apply BitVec.eq_of_getLsbD_eq
  intro i hi
  have hin : 16 + i < 32 := by omega
  have hshifted : ¬ 16 + i < 16 := by omega
  have hwide : i < 32 := by omega
  simp [hi, hin, hshifted, hwide]

theorem low_group (a b : UInt16) : ((a.toUInt32 <<< 16) ||| b.toUInt32).toUInt16 = b := by
  apply UInt16.toBitVec_inj.mp
  apply BitVec.eq_of_getLsbD_eq
  intro i hi
  simp [hi]

/-- An IPv4 address in IPv6 is read from its own text. -/
theorem readIpv6_mapped {groups : Vector UInt16 8} (h : groups.toList.take 6 = [0, 0, 0, 0, 0, 0xffff])
    {text : List Char}
    (hread : readIpv4 text = some (((groups.get 6).toUInt32 <<< 16) ||| (groups.get 7).toUInt32, [])) :
    readIpv6 ("::ffff:".toList ++ text) = some (groups, []) := by
  have hhead : readGroups 8 0 (':' :: ':' :: 'f' :: 'f' :: 'f' :: 'f' :: ':' :: text) =
      ([], false, ':' :: ':' :: 'f' :: 'f' :: 'f' :: 'f' :: ':' :: text) := rfl
  have htail : readGroups 7 0 ('f' :: 'f' :: 'f' :: 'f' :: ':' :: text) =
      ([0xffff, groups.get 6, groups.get 7], true, []) := by
    have hnone : readSeparator ':' 0 readIpv4 ('f' :: 'f' :: 'f' :: 'f' :: ':' :: text) = none := rfl
    have hgroup : readSeparator ':' 0 (readNumber hexDigit? 16 4 65536 true) ('f' :: 'f' :: 'f' :: 'f' :: ':' :: text) =
      some (0xffff, ':' :: text) := rfl
    have hv4 : readSeparator ':' 1 readIpv4 (':' :: text) = _ := hread
    have hhigh := high_group (groups.get 6) (groups.get 7)
    have hlow := low_group (groups.get 6) (groups.get 7)
    generalize ((groups.get 6).toUInt32 <<< 16) ||| (groups.get 7).toUInt32 = bits at hv4 hhigh hlow
    simp [readGroups, hnone, hgroup, hv4, hhigh, hlow]
  have hgroups : [0, 0, 0, 0, 0, 0xffff, groups.get 6, groups.get 7] = groups.toList := by
    have hdrop : groups.toList.drop 6 = [groups.get 6, groups.get 7] := by
      apply List.ext_getElem
      · simp
      · intro i hi hi'
        have hcases : i = 0 ∨ i = 1 := by simp at hi'; omega
        rw [List.getElem_drop]
        rcases hcases with rfl | rfl
        · rfl
        · rfl
    rw [← List.take_append_drop 6 groups.toList, h, hdrop]
    rfl
  show readIpv6 (':' :: ':' :: 'f' :: 'f' :: 'f' :: 'f' :: ':' :: text) = _
  simp [readIpv6, hhead, htail, readChar, hgroups, groupsOf_toList]

theorem readIp_showIpv6 : readIp (showIpv6 groups).toList = some (.v6 groups, []) := by
  have hread {cs : List Char} (hv4 : readIpv4 cs = none) (hv6 : readIpv6 cs = some (groups, [])) :
      readIp cs = some (.v6 groups, []) := by
    simp [readIp, hv4, hv6]
  unfold showIpv6
  simp only
  split
  · rename_i hmapped
    rw [String.toList_append]
    exact hread rfl (readIpv6_mapped hmapped (readIpv4_showIpv4 _))
  · obtain ⟨hzeros, hle⟩ := longestZeros_run groups.toList
    generalize longestZeros groups.toList = run at hzeros hle
    obtain ⟨start, len⟩ := run
    split
    · rename_i hlen
      have hle : start + len ≤ 8 := by
        rcases hle with hzero | hle
        · simp only at hzero hlen
          omega
        · simpa using hle
      simp only [String.toList_append, intercalate_toList, List.append_assoc]
      refine hread (readIpv4_eq_none ?_) (readIpv6_groups start len (by simp only at hlen; omega) hle hzeros)
      simp [not_mem_groupText]
    · rw [intercalate_toList]
      exact hread (readIpv4_eq_none (not_mem_groupText 0 _)) (readIpv6_all groups)

/-- An address is read from the text it is printed as. -/
theorem parseIp_show (ip : IpAddr) : parseIp (showIp ip) = some ip := by
  cases ip with
  | v4 bits => exact parseIp_showIp bits
  | v6 groups =>
    show whole readIp (showIpv6 groups).toList = _
    simp only [whole, readIp_showIpv6]

example : parseIp "192.0.2.10" = some (.v4 0xc000020a) ∧ parseIp "192.0.2.010" = none := by decide
example : (parseIp "2001:db8::1").map showIp = some "2001:db8::1" := by decide
example : parseSocketAddr "[::1]:8080" = some (.v6 #v[0, 0, 0, 0, 0, 0, 0, 1], 8080) := by decide

end EdgeLb.Lib
