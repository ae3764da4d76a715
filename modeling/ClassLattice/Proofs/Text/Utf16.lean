import ClassLattice.Text.Utf16

/-!
# Texts as UTF-16

Every text has its units, and from these it can be read back.  The sequences of units that belong
to a text are those in which high and low surrogates stand in pairs.
-/

set_option autoImplicit false

namespace ClassLattice.Text

variable {c : Char} {unit high low : UInt16} {units rest : List UInt16} {chars done : List Char}

/-! ## One character -/

/-- The first units of pairs, by their numbers. -/
theorem isHighSurrogate_iff :
    isHighSurrogate unit ↔ 0xD800 ≤ unit.toNat ∧ unit.toNat < 0xDC00 := by
  unfold isHighSurrogate
  rw [Bool.and_eq_true, decide_eq_true_iff, decide_eq_true_iff, UInt16.le_iff_toNat_le,
    UInt16.lt_iff_toNat_lt]
  rfl

/-- The second units of pairs, by their numbers. -/
theorem isLowSurrogate_iff :
    isLowSurrogate unit ↔ 0xDC00 ≤ unit.toNat ∧ unit.toNat < 0xE000 := by
  unfold isLowSurrogate
  rw [Bool.and_eq_true, decide_eq_true_iff, decide_eq_true_iff, UInt16.le_iff_toNat_le,
    UInt16.lt_iff_toNat_lt]
  rfl

/-- No unit can be both in a pair. -/
theorem not_low_of_high (h : isHighSurrogate unit) : ¬ isLowSurrogate unit := by
  rw [isHighSurrogate_iff] at h
  rw [isLowSurrogate_iff]
  omega

/-- The number of a valid character is the one that it was made from. -/
theorem toNat_charOfNat {number : Nat} (valid : number.isValidChar) :
    (Char.ofNat number).toNat = number := by
  unfold Char.ofNat
  rw [dif_pos valid]
  rfl

/-- A unit by itself is a character unless it is a surrogate. -/
theorem toNat_charOfUnit (notHigh : ¬ isHighSurrogate unit) (notLow : ¬ isLowSurrogate unit) :
    (Char.ofNat unit.toNat).toNat = unit.toNat := by
  rw [isHighSurrogate_iff] at notHigh
  rw [isLowSurrogate_iff] at notLow
  have fits : unit.toNat < 65536 := unit.toNat_lt
  apply toNat_charOfNat
  unfold Nat.isValidChar
  omega

/-- A unit that belongs to no pair is the one unit of its character. -/
theorem unitsOfChar_charOfUnit (notHigh : ¬ isHighSurrogate unit)
    (notLow : ¬ isLowSurrogate unit) : unitsOfChar (Char.ofNat unit.toNat) = [unit] := by
  unfold unitsOfChar
  rw [toNat_charOfUnit notHigh notLow, if_pos unit.toNat_lt]
  exact congrArg (fun unit => [unit]) UInt16.ofNat_toNat

/-- The number of the character of a pair. -/
theorem toNat_charOfPair (isHigh : isHighSurrogate high) (isLow : isLowSurrogate low) :
    (charOfPair high low).toNat =
      0x10000 + (high.toNat - 0xD800) * 0x400 + (low.toNat - 0xDC00) := by
  rw [isHighSurrogate_iff] at isHigh
  rw [isLowSurrogate_iff] at isLow
  unfold charOfPair
  apply toNat_charOfNat
  unfold Nat.isValidChar
  omega

/-- A pair is the units of its character. -/
theorem unitsOfChar_charOfPair (isHigh : isHighSurrogate high) (isLow : isLowSurrogate low) :
    unitsOfChar (charOfPair high low) = [high, low] := by
  unfold unitsOfChar
  rw [toNat_charOfPair isHigh isLow]
  rw [isHighSurrogate_iff] at isHigh
  rw [isLowSurrogate_iff] at isLow
  rw [if_neg (by omega)]
  have front : 0xD800 + (0x10000 + (high.toNat - 0xD800) * 0x400 + (low.toNat - 0xDC00)
      - 0x10000) / 0x400 = high.toNat := by omega
  have back : 0xDC00 + (0x10000 + (high.toNat - 0xD800) * 0x400 + (low.toNat - 0xDC00)
      - 0x10000) % 0x400 = low.toNat := by omega
  rw [front, back]
  show [UInt16.ofNat high.toNat, UInt16.ofNat low.toNat] = [high, low]
  rw [UInt16.ofNat_toNat, UInt16.ofNat_toNat]

/-- A character is one unit, which is no surrogate, or a high surrogate and a low one, and these
give it back. -/
theorem unitsOfChar_cases (c : Char) :
    (∃ unit, unitsOfChar c = [unit] ∧ ¬ isHighSurrogate unit ∧ ¬ isLowSurrogate unit ∧
      Char.ofNat unit.toNat = c) ∨
    ∃ high low, unitsOfChar c = [high, low] ∧ isHighSurrogate high ∧ isLowSurrogate low ∧
      charOfPair high low = c := by
  have valid : c.toNat.isValidChar := c.valid
  unfold Nat.isValidChar at valid
  unfold unitsOfChar
  by_cases small : c.toNat < 0x10000
  · have same : (c.toNat.toUInt16).toNat = c.toNat := UInt16.toNat_ofNat_of_lt' small
    rw [if_pos small]
    refine .inl ⟨_, rfl, ?_, ?_, ?_⟩
    · rw [isHighSurrogate_iff, same]
      omega
    · rw [isLowSurrogate_iff, same]
      omega
    · rw [same, Char.ofNat_toNat]
  · have front : (0xD800 + (c.toNat - 0x10000) / 0x400).toUInt16.toNat =
        0xD800 + (c.toNat - 0x10000) / 0x400 := UInt16.toNat_ofNat_of_lt' (by rw [UInt16.size]; omega)
    have back : (0xDC00 + (c.toNat - 0x10000) % 0x400).toUInt16.toNat =
        0xDC00 + (c.toNat - 0x10000) % 0x400 := UInt16.toNat_ofNat_of_lt' (by rw [UInt16.size]; omega)
    rw [if_neg small]
    refine .inr ⟨_, _, rfl, ?_, ?_, ?_⟩
    · rw [isHighSurrogate_iff, front]
      omega
    · rw [isLowSurrogate_iff, back]
      omega
    · unfold charOfPair
      rw [front, back]
      have same : 0x10000 + (0xD800 + (c.toNat - 0x10000) / 0x400 - 0xD800) * 0x400
          + (0xDC00 + (c.toNat - 0x10000) % 0x400 - 0xDC00) = c.toNat := by omega
      rw [same, Char.ofNat_toNat]

/-! ## Sequences -/

/-- The units of the first character are in front of those of the others. -/
theorem utf16Units_cons (c : Char) (chars : List Char) :
    utf16Units (c :: chars) = unitsOfChar c ++ utf16Units chars := rfl

/-- A unit that belongs to no pair is read as its character. -/
theorem readUtf16_unit (notHigh : ¬ isHighSurrogate unit) (notLow : ¬ isLowSurrogate unit)
    (rest : List UInt16) (done : List Char) :
    readUtf16 (unit :: rest) done = readUtf16 rest (Char.ofNat unit.toNat :: done) := by
  cases rest with
  | nil => simp [readUtf16, notHigh, notLow]
  | cons next rest => simp [readUtf16, notHigh, notLow]

/-- A pair is read as its character. -/
theorem readUtf16_pair (isHigh : isHighSurrogate high) (isLow : isLowSurrogate low)
    (rest : List UInt16) (done : List Char) :
    readUtf16 (high :: low :: rest) done = readUtf16 rest (charOfPair high low :: done) := by
  simp [readUtf16, isHigh, isLow]

/-- **The units of a text are read as that text.** -/
theorem readUtf16_utf16Units (chars done : List Char) :
    readUtf16 (utf16Units chars) done = some (done.reverse ++ chars) := by
  induction chars generalizing done with
  | nil => simp [utf16Units, readUtf16]
  | cons c chars ih =>
    rw [utf16Units_cons]
    obtain ⟨unit, same, notHigh, notLow, rfl⟩ | ⟨high, low, same, isHigh, isLow, rfl⟩ :=
      unitsOfChar_cases c
    · rw [same, List.singleton_append, readUtf16_unit notHigh notLow, ih]
      simp
    · rw [same, List.cons_append, List.singleton_append, readUtf16_pair isHigh isLow, ih]
      simp

/-- **What is read as a text has the units of that text.** -/
theorem utf16Units_of_readUtf16 (h : readUtf16 units done = some chars) :
    ∃ later, chars = done.reverse ++ later ∧ utf16Units later = units := by
  fun_induction readUtf16 units done with
  | case1 done =>
    cases h
    exact ⟨[], (List.append_nil _).symm, rfl⟩
  | case2 unit done surrogate => cases h
  | case3 unit done plain =>
    cases h
    simp only [Bool.or_eq_true, not_or] at plain
    refine ⟨[Char.ofNat unit.toNat], by simp, ?_⟩
    rw [utf16Units_cons, unitsOfChar_charOfUnit plain.1 plain.2]
    rfl
  | case4 high low rest done isHigh isLow ih =>
    obtain ⟨later, rfl, rfl⟩ := ih h
    refine ⟨charOfPair high low :: later, by simp, ?_⟩
    rw [utf16Units_cons, unitsOfChar_charOfPair isHigh isLow]
    rfl
  | case5 high next rest done isHigh notLow => cases h
  | case6 low next rest done notHigh isLow => cases h
  | case7 unit next rest done notHigh notLow ih =>
    obtain ⟨later, rfl, same⟩ := ih h
    refine ⟨Char.ofNat unit.toNat :: later, by simp, ?_⟩
    rw [utf16Units_cons, unitsOfChar_charOfUnit notHigh notLow, same]
    rfl

/-- **Units are read as the characters that have them.** -/
theorem charsOfUtf16?_eq_some_iff : charsOfUtf16? units = some chars ↔ utf16Units chars = units := by
  unfold charsOfUtf16?
  constructor
  · intro h
    obtain ⟨later, rfl, same⟩ := utf16Units_of_readUtf16 h
    exact same
  · rintro rfl
    exact readUtf16_utf16Units chars []

/-! ## Well-formed sequences -/

/-- **Surrogates stand in pairs**: a high one is directly followed by a low one, and there is no
other low one. -/
structure WellFormedUtf16 (units : List UInt16) : Prop where
  followed : ∀ place high, units[place]? = some high → isHighSurrogate high →
    ∃ low, units[place + 1]? = some low ∧ isLowSurrogate low
  preceded : ∀ place low, units[place]? = some low → isLowSurrogate low →
    ∃ before high, place = before + 1 ∧ units[before]? = some high ∧ isHighSurrogate high

namespace WellFormedUtf16

/-- No units are well-formed. -/
theorem nil : WellFormedUtf16 [] := by
  constructor
  · intro place high found
    cases found
  · intro place low found
    cases found

/-- A unit that belongs to no pair may stand in front of well-formed units. -/
theorem single (notHigh : ¬ isHighSurrogate unit) (notLow : ¬ isLowSurrogate unit)
    (h : WellFormedUtf16 rest) : WellFormedUtf16 (unit :: rest) := by
  constructor
  · intro place high found isHigh
    cases place with
    | zero =>
      cases found
      exact absurd isHigh notHigh
    | succ place => exact h.followed place high found isHigh
  · intro place low found isLow
    cases place with
    | zero =>
      cases found
      exact absurd isLow notLow
    | succ place =>
      obtain ⟨before, high, rfl, there, isHigh⟩ := h.preceded place low found isLow
      exact ⟨before + 1, high, rfl, there, isHigh⟩

/-- A pair may stand in front of well-formed units. -/
theorem pair (isHigh : isHighSurrogate high) (isLow : isLowSurrogate low)
    (h : WellFormedUtf16 rest) : WellFormedUtf16 (high :: low :: rest) := by
  constructor
  · intro place other found otherHigh
    match place with
    | 0 => exact ⟨low, rfl, isLow⟩
    | 1 =>
      cases found
      exact absurd isLow (not_low_of_high otherHigh)
    | place + 2 => exact h.followed place other found otherHigh
  · intro place other found otherLow
    match place with
    | 0 =>
      cases found
      exact absurd otherLow (not_low_of_high isHigh)
    | 1 => exact ⟨0, high, rfl, rfl, isHigh⟩
    | place + 2 =>
      obtain ⟨before, first, rfl, there, firstHigh⟩ := h.preceded place other found otherLow
      exact ⟨before + 2, first, rfl, there, firstHigh⟩

/-- What stands behind a character is well-formed: its first unit has no high surrogate before
it. -/
theorem behind (front : List UInt16) (h : WellFormedUtf16 (front ++ rest))
    (ends : ∀ last, front.getLast? = some last → ¬ isHighSurrogate last) :
    WellFormedUtf16 rest := by
  have shift (place : Nat) : (front ++ rest)[front.length + place]? = rest[place]? := by
    rw [List.getElem?_append_right (Nat.le_add_right ..), Nat.add_sub_cancel_left]
  constructor
  · intro place high found isHigh
    rw [← shift] at found
    obtain ⟨low, there, isLow⟩ := h.followed _ high found isHigh
    rw [Nat.add_assoc, shift] at there
    exact ⟨low, there, isLow⟩
  · intro place low found isLow
    rw [← shift] at found
    obtain ⟨before, high, ahead, there, isHigh⟩ := h.preceded _ low found isLow
    cases place with
    | zero =>
      refine absurd isHigh (ends high ?_)
      rw [Nat.add_zero] at ahead
      rw [List.getElem?_append_left (by omega)] at there
      rw [List.getLast?_eq_getElem?, ahead]
      exact there
    | succ place =>
      obtain rfl : front.length + place = before := by omega
      rw [shift] at there
      exact ⟨place, high, rfl, there, isHigh⟩

/-- The second unit of a pair cannot come first. -/
theorem not_low_cons (isLow : isLowSurrogate low) : ¬ WellFormedUtf16 (low :: rest) := by
  intro h
  obtain ⟨before, high, same, -⟩ := h.preceded 0 low rfl isLow
  cases same

/-- Behind the first unit of a pair is the second one. -/
theorem exists_low (h : WellFormedUtf16 (high :: rest)) (isHigh : isHighSurrogate high) :
    ∃ low, rest[0]? = some low ∧ isLowSurrogate low :=
  h.followed 0 high rfl isHigh

/-- **A well-formed sequence is read to its end.** -/
theorem exists_readUtf16 (h : WellFormedUtf16 units) (done : List Char) :
    ∃ chars, readUtf16 units done = some chars := by
  fun_induction readUtf16 units done with
  | case1 done => exact ⟨_, rfl⟩
  | case2 unit done surrogate =>
    rw [Bool.or_eq_true] at surrogate
    obtain isHigh | isLow := surrogate
    · obtain ⟨low, none, -⟩ := h.exists_low isHigh
      cases none
    · exact absurd h (not_low_cons isLow)
  | case3 unit done plain => exact ⟨_, rfl⟩
  | case4 high low rest done isHigh isLow ih =>
    apply ih
    apply behind [high, low] h
    rintro last ⟨⟩
    intro lastHigh
    exact not_low_of_high lastHigh isLow
  | case5 high next rest done isHigh notLow =>
    obtain ⟨low, same, isLow⟩ := h.exists_low isHigh
    cases same
    exact absurd isLow notLow
  | case6 low next rest done notHigh isLow => exact absurd h (not_low_cons isLow)
  | case7 unit next rest done notHigh notLow ih =>
    apply ih
    apply behind [unit] h
    rintro last ⟨⟩
    exact notHigh

end WellFormedUtf16

/-- **The sequences of units that belong to a text** are those with surrogates in pairs. -/
theorem wellFormedUtf16_iff :
    WellFormedUtf16 units ↔ ∃ chars, utf16Units chars = units := by
  constructor
  · intro h
    obtain ⟨chars, ran⟩ := h.exists_readUtf16 []
    exact ⟨chars, charsOfUtf16?_eq_some_iff.1 ran⟩
  · rintro ⟨chars, rfl⟩
    induction chars with
    | nil => exact .nil
    | cons c chars ih =>
      rw [utf16Units_cons]
      obtain ⟨unit, same, notHigh, notLow, -⟩ | ⟨high, low, same, isHigh, isLow, -⟩ :=
        unitsOfChar_cases c
      · rw [same]
        exact .single notHigh notLow ih
      · rw [same]
        exact .pair isHigh isLow ih

end ClassLattice.Text
