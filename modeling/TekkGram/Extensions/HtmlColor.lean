import TekkGram.Model.Strings

/-!
# Colours of HTML

A colour is written with up to eight hexadecimal digits. The padding that fills up missing digits
has two of them, so that a padded text may have up to fifteen; the colour keeps the lowest eight.
-/

namespace TekkGram

/-- `removeAll`. -/
def removeAll (s : String) (values : List String) : String :=
  values.foldl (fun result value => Dart.replaceAll result value "") s

/-- A colour with eight bits for each of alpha, red, green and blue. -/
structure Color where
  value : BitVec 32
  deriving DecidableEq, Repr

namespace Color

/-- The constructor `Color`, which keeps the lowest bits. -/
def ofInt (value : Int) : Color := ⟨.ofInt 32 value⟩

/-- The eight bits of a channel. -/
def channel (color : Color) (shift : Nat) : Nat := (color.value.toNat / 2 ^ shift) % 2 ^ 8

def alpha (color : Color) : Nat := color.channel 24
def red (color : Color) : Nat := color.channel 16
def green (color : Color) : Nat := color.channel 8
def blue (color : Color) : Nat := color.channel 0

@[simp] theorem value_ofInt (n : Nat) : (ofInt n).value.toNat = n % 2 ^ 32 := by
  rw [ofInt, BitVec.toNat_ofInt]
  omega

end Color

/-- The text without its marks. -/
def htmlDigits (s : String) : String := removeAll s ["0x", "#"]

/-- `htmlColorToColor`, which throws if the padded text is no integer. -/
def htmlColorToColor (s : String) : Option Color :=
  (Dart.parseInt 16 (Dart.padLeft (htmlDigits s) 8 "ff")).map Color.ofInt

section Padding

variable {s : String} {ds : List Nat}

/-- The padded text has two digits for each missing one. -/
theorem digits_padLeft (h : Dart.digits 16 s.toList = some ds) :
    Dart.digits 16 (Dart.padLeft s 8 "ff").toList =
      some (List.replicate (2 * (8 - ds.length)) 15 ++ ds) := by
  have hpair : Dart.digits 16 "ff".toList = some [15, 15] := by decide
  have hpadding : ∀ k, Dart.digits 16 (List.replicate k "ff".toList).flatten =
      some (List.replicate (2 * k) 15) := by
    intro k
    induction k with
    | zero => rfl
    | succ k ih =>
      rw [List.replicate_succ, List.flatten_cons]
      exact Dart.digits_append hpair ih
  rw [Dart.padLeft, String.toList_ofList, Dart.length_of_digits h]
  exact Dart.digits_append (hpadding _) h

/-- The digits missing from eight count for a power. -/
theorem pow_missing_mul (hle : ds.length ≤ 8) :
    16 ^ (8 - ds.length) * 16 ^ ds.length = 2 ^ 32 := by
  rw [← pow_add, Nat.sub_add_cancel hle]
  rfl

/-- The value of the padded text: in its lowest eight digits, the missing ones are the greatest. -/
theorem ofDigits_padded (hle : ds.length ≤ 8) :
    Dart.ofDigits 16 (List.replicate (2 * (8 - ds.length)) 15 ++ ds) =
      2 ^ 32 * (16 ^ (8 - ds.length) - 1) + (2 ^ 32 - 16 ^ ds.length + Dart.ofDigits 16 ds) := by
  have hpadding : Dart.ofDigits 16 (List.replicate (2 * (8 - ds.length)) 15) + 1 =
      16 ^ (8 - ds.length) * 16 ^ (8 - ds.length) := by
    rw [← pow_add, ← two_mul]
    exact Dart.ofDigits_replicate _
  have hpower := pow_missing_mul hle
  have hone : 1 ≤ 16 ^ (8 - ds.length) := Nat.one_le_pow _ _ (by decide)
  rw [Dart.ofDigits_append]
  generalize Dart.ofDigits 16 (List.replicate (2 * (8 - ds.length)) 15) = padding at hpadding ⊢
  generalize 16 ^ (8 - ds.length) = missing at hpadding hpower hone ⊢
  have hshifted : padding * 16 ^ ds.length + 16 ^ ds.length = 2 ^ 32 * missing := by
    calc padding * 16 ^ ds.length + 16 ^ ds.length
        = (padding + 1) * 16 ^ ds.length := (Nat.succ_mul ..).symm
      _ = missing * (missing * 16 ^ ds.length) := by rw [hpadding, mul_assoc]
      _ = 2 ^ 32 * missing := by rw [hpower, mul_comm]
  have hpart : 16 ^ ds.length ≤ 2 ^ 32 := hpower ▸ Nat.le_mul_of_pos_left _ hone
  omega

/-- The padded text fits into 64 bits. -/
theorem ofDigits_padded_lt (hlt : ∀ v ∈ ds, v < 16) (hne : ds ≠ []) (hle : ds.length ≤ 8) :
    Dart.ofDigits 16 (List.replicate (2 * (8 - ds.length)) 15 ++ ds) < 2 ^ 63 := by
  have hdigits : ∀ v ∈ List.replicate (2 * (8 - ds.length)) 15 ++ ds, v < 16 := by
    refine List.forall_mem_append.mpr ⟨fun v hv => ?_, hlt⟩
    rw [List.eq_of_mem_replicate hv]
    decide
  have hpos : 0 < ds.length := List.length_pos_iff.mpr hne
  calc Dart.ofDigits 16 (List.replicate (2 * (8 - ds.length)) 15 ++ ds)
      < 16 ^ (2 * (8 - ds.length) + ds.length) := by
        simpa using Dart.ofDigits_lt (by decide) hdigits
    _ ≤ 16 ^ 15 := Nat.pow_le_pow_right (by decide) (by omega)
    _ < 2 ^ 63 := by decide

end Padding

/-- The digits of an opaque colour come in pairs, one for each channel. -/
theorem channels_of_six {color : Color} {ds : List Nat} (hlt : ∀ v ∈ ds, v < 16)
    (hsix : ds.length = 6) (h : color.value.toNat = 2 ^ 32 - 16 ^ 6 + Dart.ofDigits 16 ds) :
    color.alpha = 0xff ∧ color.red = Dart.ofDigits 16 (ds.take 2) ∧
      color.green = Dart.ofDigits 16 ((ds.drop 2).take 2) ∧
      color.blue = Dart.ofDigits 16 (ds.drop 4) := by
  obtain ⟨a, b, c, d, e, f, rfl⟩ : ∃ a b c d e f, ds = [a, b, c, d, e, f] := by
    match ds, hsix with
    | [a, b, c, d, e, f], _ => exact ⟨a, b, c, d, e, f, rfl⟩
  simp only [List.forall_mem_cons] at hlt
  simp only [Color.alpha, Color.red, Color.green, Color.blue, Color.channel, h, Dart.ofDigits,
    List.take_succ_cons, List.take_zero, List.drop_succ_cons, List.drop_zero, List.reverse_cons,
    List.reverse_nil, List.nil_append, List.cons_append, Nat.ofDigits_cons, Nat.ofDigits_nil]
  omega

/-- A text with up to eight hexadecimal digits is parsed without an overflow to the colour that has
the greatest digit in place of the missing ones: with six digits it is opaque, with eight it has
their value. -/
theorem htmlColorToColor_eq {s : String} {ds : List Nat}
    (h : Dart.digits 16 (htmlDigits s).toList = some ds) (hpos : 1 ≤ ds.length)
    (hle : ds.length ≤ 8) :
    ∃ color, htmlColorToColor s = some color ∧
      color.value.toNat = 2 ^ 32 - 16 ^ ds.length + Dart.ofDigits 16 ds ∧
      (ds.length = 6 → color.alpha = 0xff ∧ color.red = Dart.ofDigits 16 (ds.take 2) ∧
        color.green = Dart.ofDigits 16 ((ds.drop 2).take 2) ∧
        color.blue = Dart.ofDigits 16 (ds.drop 4)) ∧
      (ds.length = 8 → color.value.toNat = Dart.ofDigits 16 ds) := by
  obtain ⟨-, hlt, -⟩ := Dart.forall_of_digits h
  have hne : ds ≠ [] := List.length_pos_iff.mp hpos
  have hparse : Dart.parseInt 16 (Dart.padLeft (htmlDigits s) 8 "ff") = some
      (Dart.ofDigits 16 (List.replicate (2 * (8 - ds.length)) 15 ++ ds) : Int) := by
    rw [Dart.parseInt_of_digits (digits_padLeft h) (List.append_ne_nil_of_right_ne_nil _ hne)]
    refine if_pos ⟨?_, ?_⟩
    · exact (Int.neg_nonpos_of_nonneg (by decide)).trans (Int.natCast_nonneg _)
    · exact_mod_cast ofDigits_padded_lt hlt hne hle
  have hvalue : (Color.ofInt (Dart.ofDigits 16
      (List.replicate (2 * (8 - ds.length)) 15 ++ ds) : Int)).value.toNat =
        2 ^ 32 - 16 ^ ds.length + Dart.ofDigits 16 ds := by
    have hdigits : Dart.ofDigits 16 ds < 16 ^ ds.length := Dart.ofDigits_lt (by decide) hlt
    have hpart : 16 ^ ds.length ≤ 2 ^ 32 :=
      pow_missing_mul hle ▸ Nat.le_mul_of_pos_left _ (by positivity)
    rw [Color.value_ofInt, ofDigits_padded hle, Nat.mul_add_mod_self_left, Nat.mod_eq_of_lt]
    omega
  refine ⟨_, by rw [htmlColorToColor, hparse, Option.map_some], hvalue, fun hsix => ?_,
    fun height => ?_⟩
  · exact channels_of_six hlt hsix (hvalue.trans (by rw [hsix]))
  · rw [hvalue, height]
    norm_num

/-- The colour of a button. -/
theorem htmlColorToColor_eq_button : ∃ color, htmlColorToColor "#de5246" = some color ∧
    color.alpha = 0xff ∧ color.red = 0xde ∧ color.green = 0x52 ∧ color.blue = 0x46 := by
  have hdigits : Dart.digits 16 (htmlDigits "#de5246").toList = some [13, 14, 5, 2, 4, 6] := by
    decide +kernel
  obtain ⟨color, hcolor, -, hchannels, -⟩ :=
    htmlColorToColor_eq hdigits (by decide) (by decide)
  exact ⟨color, hcolor, hchannels rfl⟩

end TekkGram
