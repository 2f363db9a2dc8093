import Mathlib.Data.Nat.Digits.Defs

/-!
# Strings of Dart

Dart measures and orders strings by their UTF-16 code units. The functions of strings that the app
calls follow the documentation of its core library.
-/

namespace TekkGram

/-- The UTF-16 code units of a character: itself, or a surrogate pair. -/
def charCodeUnits (c : Char) : List Nat :=
  if c.toNat < 0x10000 then [c.toNat]
  else [0xD800 + (c.toNat - 0x10000) / 0x400, 0xDC00 + (c.toNat - 0x10000) % 0x400]

/-- `codeUnits`. -/
def codeUnits (s : String) : List Nat := s.toList.flatMap charCodeUnits

/-- No code unit of one character is the beginning of another character. -/
theorem charCodeUnits_append_inj {c d : Char} {xs ys : List Nat}
    (h : charCodeUnits c ++ xs = charCodeUnits d ++ ys) : c = d ∧ xs = ys := by
  have hc := c.valid
  have hd := d.valid
  rw [← Char.toNat_inj]
  simp only [UInt32.isValidChar, Nat.isValidChar] at hc hd
  have hc' : c.toNat = c.val.toNat := rfl
  have hd' : d.toNat = d.val.toNat := rfl
  unfold charCodeUnits at h
  split at h <;> split at h <;>
    simp only [List.cons_append, List.nil_append, List.cons.injEq] at h
  · exact h
  · omega
  · omega
  · exact ⟨by omega, h.2.2⟩

/-- A string is determined by its code units. -/
theorem codeUnits_inj {s t : String} : codeUnits s = codeUnits t ↔ s = t := by
  refine ⟨fun h => String.toList_injective ?_, congrArg codeUnits⟩
  unfold codeUnits at h
  generalize s.toList = xs at h ⊢
  generalize t.toList = ys at h ⊢
  have hne : ∀ c, charCodeUnits c ≠ [] := by
    intro c
    unfold charCodeUnits
    split <;> nofun
  induction xs generalizing ys with
  | nil =>
    cases ys with
    | nil => rfl
    | cons d ys => simp [hne] at h
  | cons c xs ih =>
    cases ys with
    | nil => simp [hne] at h
    | cons d ys =>
      rw [List.flatMap_cons, List.flatMap_cons] at h
      obtain ⟨rfl, hrest⟩ := charCodeUnits_append_inj h
      rw [ih ys hrest]

namespace Dart

/-- The characters that `trim` removes: Unicode white space and the byte order mark. -/
def isWhitespace (c : Char) : Bool :=
  c.toNat ∈ [0x09, 0x0A, 0x0B, 0x0C, 0x0D, 0x20, 0x85, 0xA0, 0x1680, 0x2000, 0x2001, 0x2002, 0x2003,
    0x2004, 0x2005, 0x2006, 0x2007, 0x2008, 0x2009, 0x200A, 0x2028, 0x2029, 0x202F, 0x205F, 0x3000,
    0xFEFF]

/-- `trim`. -/
def trim (s : String) : String :=
  .ofList ((s.toList.dropWhile isWhitespace).reverse.dropWhile isWhitespace).reverse

/-- `length`. -/
def length (s : String) : Nat := (codeUnits s).length

/-- The characters after replacing, from the left, every occurrence of a pattern that is not empty;
the characters to skip are the rest of an occurrence. -/
def replaceFrom (pattern replacement : List Char) : Nat → List Char → List Char
  | _, [] => []
  | skip + 1, _ :: rest => replaceFrom pattern replacement skip rest
  | 0, c :: rest =>
    if pattern.isPrefixOf (c :: rest) then
      replacement ++ replaceFrom pattern replacement (pattern.length - 1) rest
    else c :: replaceFrom pattern replacement 0 rest

/-- `replaceAll`. -/
def replaceAll (s pattern replacement : String) : String :=
  .ofList (replaceFrom pattern.toList replacement.toList 0 s.toList)

/-- `split` at a character. -/
def split (s : String) (c : Char) : List String := (s.toList.splitOn c).map String.ofList

/-- A string has at least one word. -/
theorem split_ne_nil (s : String) (c : Char) : split s c ≠ [] := fun h =>
  List.splitOn_ne_nil c s.toList (List.map_eq_nil_iff.mp h)

/-- The words with the separator before each of them make up the string behind one separator. -/
theorem join_split (s : String) (c : Char) :
    String.join ((split s c).map (String.singleton c ++ ·)) = String.singleton c ++ s := by
  have hjoin : ∀ ws : List (List Char), ws ≠ [] →
      ws.flatMap (c :: ·) = c :: [c].intercalate ws := by
    intro ws hne
    induction ws with
    | nil => exact absurd rfl hne
    | cons w ws ih =>
      cases ws with
      | nil => simp
      | cons w' ws => rw [List.flatMap_cons, ih nofun, List.intercalate_cons_cons]; simp
  refine String.toList_injective ?_
  calc (String.join ((split s c).map (String.singleton c ++ ·))).toList
      = (s.toList.splitOn c).flatMap (c :: ·) := by
        simp [split, String.toList_join, List.flatMap_map, Function.comp_def]
    _ = c :: [c].intercalate (s.toList.splitOn c) := hjoin _ (List.splitOn_ne_nil c _)
    _ = (String.singleton c ++ s).toList := by
        rw [List.intercalate_splitOn, String.toList_append, String.toList_singleton,
          List.singleton_append]

/-- `padLeft`: the whole padding is prepended once for every missing code unit. -/
def padLeft (s : String) (width : Nat) (padding : String) : String :=
  .ofList ((List.replicate (width - length s) padding.toList).flatten ++ s.toList)

/-- The value of a figure or of a letter as a digit. -/
def digit (radix : Nat) (c : Char) : Option Nat :=
  let n := c.toNat
  let value :=
    if 0x30 ≤ n ∧ n ≤ 0x39 then some (n - 0x30)
    else if 0x41 ≤ n ∧ n ≤ 0x5A then some (n - 0x41 + 10)
    else if 0x61 ≤ n ∧ n ≤ 0x7A then some (n - 0x61 + 10)
    else none
  value.filter (· < radix)

/-- The digits of a numeral, the first one first. -/
def digits (radix : Nat) (cs : List Char) : Option (List Nat) := cs.mapM (digit radix)

/-- The value of digits, the first one counting most. -/
def ofDigits (radix : Nat) (ds : List Nat) : Nat := Nat.ofDigits radix ds.reverse

/-- An integer that fits into 64 bits. -/
def toInt64 (x : Int) : Option Int := if -2 ^ 63 ≤ x ∧ x < 2 ^ 63 then some x else none

/-- A numeral of at least one digit. -/
def parseDigits (radix : Nat) : List Char → Option Nat
  | [] => none
  | c :: cs => (digits radix (c :: cs)).map (ofDigits radix)

/-- `int.parse`: digits after an optional sign, between white space. It throws if there is something
else or if the value does not fit into 64 bits. -/
def parseInt (radix : Nat) (s : String) : Option Int :=
  match (trim s).toList with
  | '-' :: cs => (parseDigits radix cs).bind fun value => toInt64 (-value)
  | '+' :: cs => (parseDigits radix cs).bind fun value => toInt64 value
  | cs => (parseDigits radix cs).bind fun value => toInt64 value

section Numerals

variable {radix v : Nat} {c : Char} {cs : List Char} {ds : List Nat} {s : String}

theorem digit_lt (h : digit radix c = some v) : v < radix := by
  simpa using (Option.filter_eq_some_iff.mp h).2

/-- Digits are figures and letters of ASCII. -/
theorem toNat_of_digit (h : digit radix c = some v) : 0x30 ≤ c.toNat ∧ c.toNat ≤ 0x7A := by
  have hvalue := (Option.filter_eq_some_iff.mp h).1
  split at hvalue
  · omega
  · split at hvalue
    · omega
    · split at hvalue
      · omega
      · cases hvalue

theorem digits_cons_eq_some : digits radix (c :: cs) = some ds ↔
    ∃ v rest, digit radix c = some v ∧ digits radix cs = some rest ∧ ds = v :: rest := by
  simp only [digits, List.mapM_cons, Option.bind_eq_bind, Option.pure_def, Option.bind_eq_some_iff,
    Option.some.injEq]
  constructor
  · rintro ⟨v, hv, rest, hrest, rfl⟩
    exact ⟨v, rest, hv, hrest, rfl⟩
  · rintro ⟨v, rest, hv, hrest, rfl⟩
    exact ⟨v, hv, rest, hrest, rfl⟩

theorem digits_append {cs' : List Char} {ds' : List Nat} (h : digits radix cs = some ds)
    (h' : digits radix cs' = some ds') : digits radix (cs ++ cs') = some (ds ++ ds') := by
  unfold digits at *
  rw [List.mapM_append, h, h']
  rfl

/-- Every digit of a numeral is the value of a character. -/
theorem forall_of_digits (h : digits radix cs = some ds) :
    ds.length = cs.length ∧ (∀ v ∈ ds, v < radix) ∧
      ∀ c ∈ cs, 0x30 ≤ c.toNat ∧ c.toNat ≤ 0x7A := by
  induction cs generalizing ds with
  | nil =>
    cases h
    exact ⟨rfl, nofun, nofun⟩
  | cons c cs ih =>
    obtain ⟨v, rest, hv, hrest, rfl⟩ := digits_cons_eq_some.mp h
    obtain ⟨hlength, hlt, hascii⟩ := ih hrest
    exact ⟨congrArg (· + 1) hlength, List.forall_mem_cons.mpr ⟨digit_lt hv, hlt⟩,
      List.forall_mem_cons.mpr ⟨toNat_of_digit hv, hascii⟩⟩

/-- A numeral has one code unit for each digit. -/
theorem length_of_digits (h : digits radix s.toList = some ds) : length s = ds.length := by
  obtain ⟨hlength, -, hascii⟩ := forall_of_digits h
  unfold length codeUnits
  have hone : ∀ c ∈ s.toList, (charCodeUnits c).length = 1 := by
    intro c hc
    have hc' := hascii c hc
    rw [charCodeUnits, if_pos (by omega)]
    rfl
  rw [hlength, List.length_flatMap, List.map_congr_left hone, List.map_const',
    List.sum_replicate_nat, mul_one]

/-- Nothing is trimmed from a string without white space. -/
theorem trim_of_not_isWhitespace (h : ∀ c ∈ s.toList, isWhitespace c = false) : trim s = s := by
  have hself : ∀ xs : List Char, (∀ c ∈ xs, isWhitespace c = false) →
      xs.dropWhile isWhitespace = xs := by
    intro xs hxs
    cases xs with
    | nil => rfl
    | cons c xs => exact List.dropWhile_cons_of_neg (by simp [hxs c List.mem_cons_self])
  unfold trim
  rw [hself _ h, hself _ fun c hc => h c (List.mem_reverse.mp hc), List.reverse_reverse,
    String.ofList_toList]

/-- A numeral without a sign is parsed to its value, if it fits into 64 bits. -/
theorem parseInt_of_digits (h : digits radix s.toList = some ds) (hne : ds ≠ []) :
    parseInt radix s = toInt64 (ofDigits radix ds) := by
  obtain ⟨hlength, -, hascii⟩ := forall_of_digits h
  have htrim : trim s = s := by
    refine trim_of_not_isWhitespace fun c hc => ?_
    have hc' := hascii c hc
    simp only [isWhitespace, List.mem_cons, List.not_mem_nil, or_false, decide_eq_false_iff_not]
    omega
  unfold parseInt
  rw [htrim]
  cases hs : s.toList with
  | nil =>
    rw [hs] at hlength
    exact absurd (List.length_eq_zero_iff.mp hlength) hne
  | cons c cs =>
    have hc := hascii c (hs ▸ List.mem_cons_self)
    rw [hs] at h
    split
    · rename_i hsign
      obtain rfl := (List.cons.inj hsign).1
      exact absurd hc.1 (by decide)
    · rename_i hsign
      obtain rfl := (List.cons.inj hsign).1
      exact absurd hc.1 (by decide)
    · have hparse : parseDigits radix (c :: cs) = some (ofDigits radix ds) := by
        rw [parseDigits, h, Option.map_some]
      rw [hparse, Option.bind_some]

theorem ofDigits_append {ds' : List Nat} :
    ofDigits radix (ds ++ ds') = ofDigits radix ds * radix ^ ds'.length + ofDigits radix ds' := by
  simp only [ofDigits, List.reverse_append, Nat.ofDigits_append, List.length_reverse]
  ring

theorem ofDigits_lt (hradix : 1 < radix) (h : ∀ v ∈ ds, v < radix) :
    ofDigits radix ds < radix ^ ds.length := by
  have hlt := Nat.ofDigits_lt_base_pow_length hradix (l := ds.reverse)
    fun v hv => h v (List.mem_reverse.mp hv)
  rwa [List.length_reverse] at hlt

/-- The numeral of greatest digits is one less than a power. -/
theorem ofDigits_replicate (k : Nat) : ofDigits (radix + 1) (List.replicate k radix) + 1 =
    (radix + 1) ^ k := by
  induction k with
  | zero => rfl
  | succ k ih =>
    have hlast : ofDigits (radix + 1) [radix] = radix := Nat.ofDigits_singleton
    rw [List.replicate_succ', ofDigits_append, List.length_singleton, hlast, pow_one, pow_succ,
      ← ih]
    ring

end Numerals

end Dart

end TekkGram
