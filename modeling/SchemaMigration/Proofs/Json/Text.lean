import SchemaMigration.Json.Token
import SchemaMigration.Json.Writer

namespace SchemaMigration.Json

theorem hexValue?_digitChar : ∀ d < 16, hexValue? (Nat.digitChar d) = some d := by
  decide

theorem units?_unicodeEscape {unit : Nat} (fits : unit < 0x10000) (rest : List Char) :
    units? (unicodeEscape unit ++ rest) = prepend unit (units? rest) := by
  have digit : ∀ n, hexValue? (Nat.digitChar (n % 16)) = some (n % 16) :=
    fun n => hexValue?_digitChar _ (Nat.mod_lt n (by decide))
  have read : hexUnit? (Nat.digitChar (unit / 16 / 16 / 16 % 16)) (Nat.digitChar (unit / 16 / 16 % 16))
      (Nat.digitChar (unit / 16 % 16)) (Nat.digitChar (unit % 16)) = some unit := by
    simp only [hexUnit?, digit]
    simp only [Option.bind_eq_bind, Option.bind_some, Option.pure_def, Option.some.injEq]
    omega
  simp [unicodeEscape, Text.hex, units?, read]

def charUnits (asciiOnly : Bool) (c : Char) : List Nat :=
  if asciiOnly && 0x10000 ≤ c.toNat then
    [0xd800 + (c.toNat - 0x10000) / 1024, 0xdc00 + (c.toNat - 0x10000) % 1024]
  else [c.toNat]

def prependAll (units : List Nat) (found : Option (List Nat × List Char)) : Option (List Nat × List Char) :=
  units.foldr prepend found

theorem prependAll_some (units more : List Nat) (rest : List Char) :
    prependAll units (some (more, rest)) = some (units ++ more, rest) := by
  induction units with
  | nil => rfl
  | cons unit units ih => simp only [prependAll, List.foldr_cons] at ih ⊢; simp [ih, prepend]

theorem units?_plain {c : Char} (notQuote : c ≠ '"') (notBackslash : c ≠ '\\') (shown : ¬ c.toNat < 32)
    (rest : List Char) : units? (c :: rest) = prepend c.toNat (units? rest) := by
  rw [units?.eq_def]
  grind

theorem toNat_lt (c : Char) : c.toNat < 0xd800 ∨ 0xdfff < c.toNat ∧ c.toNat < 0x110000 := c.valid

theorem units?_escape (asciiOnly : Bool) (c : Char) (rest : List Char) :
    units? (escape asciiOnly c ++ rest) = prependAll (charUnits asciiOnly c) (units? rest) := by
  have bound := toNat_lt c
  unfold escape
  simp only [beq_iff_eq]
  -- the characters with an escape of their own
  iterate 7
    split
    · subst_vars
      cases asciiOnly <;> rfl
  split
  · rw [units?_unicodeEscape (by omega), charUnits, if_neg (by simp; omega)]
    rfl
  split
  · rename_i shown plain
    rw [List.singleton_append, units?_plain ‹_› ‹_› shown, charUnits, if_neg]
    · rfl
    · simp only [Bool.or_eq_true, Bool.not_eq_true', decide_eq_true_eq] at plain
      simp only [Bool.and_eq_true, decide_eq_true_eq, not_and]
      intro ascii
      rw [ascii] at plain
      grind
  · rename_i special
    have ascii : asciiOnly = true := by
      cases asciiOnly <;> simp_all
    split
    · rw [units?_unicodeEscape ‹_›, charUnits, if_neg (by simp; omega)]
      rfl
    · rw [List.append_assoc, units?_unicodeEscape (by omega), units?_unicodeEscape (by omega), charUnits, ascii,
        if_pos (by simp; omega)]
      rfl

theorem units?_stringText (asciiOnly : Bool) (s rest : List Char) :
    units? (s.flatMap (escape asciiOnly) ++ '"' :: rest) = some (s.flatMap (charUnits asciiOnly), rest) := by
  induction s with
  | nil => rfl
  | cons c tail ih =>
      rw [List.flatMap_cons, List.flatMap_cons, List.append_assoc, units?_escape, ih, prependAll_some]

theorem joinUnits_cons {unit : Nat} (notHigh : isHighSurrogate unit = false) (notLow : isLowSurrogate unit = false)
    (units : List Nat) : joinUnits (unit :: units) = Char.ofNat unit :: joinUnits units := by
  cases units <;> simp [joinUnits, notHigh, notLow]

theorem joinUnits_charUnits (asciiOnly : Bool) (c : Char) (units : List Nat) :
    joinUnits (charUnits asciiOnly c ++ units) = c :: joinUnits units := by
  have bound := toNat_lt c
  have same := Char.ofNat_toNat c
  unfold charUnits
  split
  · rename_i beyond
    simp only [Bool.and_eq_true, decide_eq_true_eq] at beyond
    have high : isHighSurrogate (0xd800 + (c.toNat - 0x10000) / 1024) = true := by
      simp only [isHighSurrogate, Bool.and_eq_true, decide_eq_true_eq]
      omega
    have low : isLowSurrogate (0xdc00 + (c.toNat - 0x10000) % 1024) = true := by
      simp only [isLowSurrogate, Bool.and_eq_true, decide_eq_true_eq]
      omega
    have joined : 0x10000 + (0xd800 + (c.toNat - 0x10000) / 1024 - 0xd800) * 1024 +
        (0xdc00 + (c.toNat - 0x10000) % 1024 - 0xdc00) = c.toNat := by
      omega
    simp only [List.cons_append, List.nil_append, joinUnits, high, low, Bool.and_self, ↓reduceIte, joined, same]
  · have notHigh : isHighSurrogate c.toNat = false := by
      simp only [isHighSurrogate, Bool.and_eq_false_iff, decide_eq_false_iff_not]
      omega
    have notLow : isLowSurrogate c.toNat = false := by
      simp only [isLowSurrogate, Bool.and_eq_false_iff, decide_eq_false_iff_not]
      omega
    rw [List.singleton_append, joinUnits_cons notHigh notLow, same]

theorem joinUnits_flatMap (asciiOnly : Bool) (s : List Char) : joinUnits (s.flatMap (charUnits asciiOnly)) = s := by
  induction s with
  | nil => rfl
  | cons c tail ih => rw [List.flatMap_cons, joinUnits_charUnits, ih]

theorem step?_stringText (asciiOnly : Bool) (s : String) (rest : List Char) :
    step? (stringText asciiOnly s.toList ++ rest) = some (.leaf (.str s), rest) := by
  have read := units?_stringText asciiOnly s.toList rest
  simp only [stringText, List.cons_append, List.append_assoc, List.nil_append, step?, read, Option.map_some,
    joinUnits_flatMap, String.ofList_toList]

end SchemaMigration.Json
