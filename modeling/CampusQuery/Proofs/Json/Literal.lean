import CampusQuery.Json.Printer
import CampusQuery.Json.Token
import CampusQuery.Proofs.Number.Shortest

/-!
Texts of numbers. Main statement: the text that is written for a finite double is one literal, whose
nearest double it is up to the sign of a zero, and a number that is written as an integer is read back.
-/

namespace CampusQuery

section Digits

theorem isDigit_of_mem_toDigits {n : Nat} : ∀ c ∈ Nat.toDigits 10 n, c.isDigit = true :=
  fun _ hc => Nat.isDigit_of_mem_toDigits (by decide) (by decide) hc

theorem toDigits_eq_cons {n : Nat} (hn : 0 < n) :
    ∃ c rest, Nat.toDigits 10 n = c :: rest ∧ c ≠ '0' := by
  induction n using Nat.strongRecOn with
  | ind n ih =>
    rw [Nat.toDigits_eq_if (by decide)]
    split
    · next hlt =>
      have nonzero : ∀ d < 10, 0 < d → Nat.digitChar d ≠ '0' := by decide
      exact ⟨_, _, rfl, nonzero n hlt hn⟩
    · next hge =>
      obtain ⟨c, rest, heq, hc⟩ := ih (n / 10) (by omega) (by omega)
      exact ⟨c, rest ++ [Nat.digitChar (n % 10)], by rw [heq, List.cons_append], hc⟩

namespace NumberLiteral

theorem natOfDigits_eq (digits : List Char) : natOfDigits digits = Nat.ofDigitChars 10 digits 0 :=
  Nat.ofDigitChars_eq_foldl.symm

@[simp] theorem natOfDigits_toDigits (n : Nat) : natOfDigits (Nat.toDigits 10 n) = n := by
  rw [natOfDigits_eq, Nat.ofDigitChars_ten_toDigits]

theorem natOfDigits_append (front back : List Char) :
    natOfDigits (front ++ back) = 10 ^ back.length * natOfDigits front + natOfDigits back := by
  simp only [natOfDigits_eq]
  rw [Nat.ofDigitChars_append, Nat.ofDigitChars_eq_ofDigitChars_zero]

@[simp] theorem natOfDigits_replicate (n : Nat) : natOfDigits (List.replicate n '0') = 0 := by
  rw [natOfDigits_eq, Nat.ofDigitChars_replicate_zero, Nat.mul_zero]

theorem isWhole_cons {c : Char} {rest : List Char} (hc : c ≠ '0') :
    isWhole (c :: rest) = true := by
  cases rest <;> simp [isWhole, hc]

theorem isWhole_take {digits : List Char} (h : ∃ c rest, digits = c :: rest ∧ c ≠ '0') (n : Nat) :
    isWhole (digits.take (n + 1)) = true := by
  obtain ⟨c, rest, rfl, hc⟩ := h
  rw [List.take_succ_cons, isWhole_cons hc]

theorem isWhole_toDigits (n : Nat) : isWhole (Nat.toDigits 10 n) = true := by
  rcases Nat.eq_zero_or_pos n with rfl | hn
  · rfl
  · obtain ⟨c, rest, heq, hc⟩ := toDigits_eq_cons hn
    rw [heq, isWhole_cons hc]

end NumberLiteral

end Digits

namespace NumberLiteral

section Grammar

variable {negative : Bool} {whole fraction rest : List Char}

theorem span_digits (hwhole : ∀ c ∈ whole, c.isDigit = true)
    (hrest : ∀ c ∈ rest.head?, c.isDigit = false) :
    (whole ++ rest).takeWhile Char.isDigit = whole ∧
      (whole ++ rest).dropWhile Char.isDigit = rest := by
  rw [List.takeWhile_append_of_pos hwhole, List.dropWhile_append_of_pos hwhole]
  cases rest with
  | nil => simp
  | cons c rest =>
    have hc := hrest c rfl
    simp [hc]

theorem unsigned?_append (hwhole : ∀ c ∈ whole, c.isDigit = true) (hvalid : isWhole whole = true)
    (hrest : ∀ c ∈ rest.head?, c.isDigit = false) :
    parse?.unsigned? negative (whole ++ rest) = afterWhole? negative whole rest := by
  obtain ⟨taken, dropped⟩ := span_digits hwhole hrest
  simp only [parse?.unsigned?, taken, dropped, hvalid, if_true]

theorem parse?_sign (negative : Bool) {cs : List Char} (h : cs.head? ≠ some '-') :
    parse? ((if negative then ['-'] else []) ++ cs) = parse?.unsigned? negative cs := by
  cases negative with
  | true => rfl
  | false =>
    simp only [Bool.false_eq_true, if_false, List.nil_append]
    unfold parse?
    split
    · simp at h
    · rfl

theorem exponent?_toDigits (e : Int) :
    exponent? ((if e < 0 then ['-'] else ['+']) ++ Nat.toDigits 10 e.natAbs) = some e := by
  have digits : (Nat.toDigits 10 e.natAbs).all Char.isDigit = true := by
    rw [List.all_eq_true]
    exact isDigit_of_mem_toDigits
  split
  · next hneg =>
    simp only [List.cons_append, List.nil_append, exponent?, exponent?.unsigned?, digits]
    simp only [ne_eq, Nat.toDigits_ne_nil, not_false_eq_true, and_self, if_true,
      natOfDigits_toDigits, Int.ofNat_eq_natCast, Option.some.injEq]
    omega
  · next hpos =>
    simp only [List.cons_append, List.nil_append, exponent?, exponent?.unsigned?, digits]
    simp only [ne_eq, Nat.toDigits_ne_nil, not_false_eq_true, and_self, if_true, Bool.false_eq_true,
      if_false, natOfDigits_toDigits, Int.ofNat_eq_natCast, Option.some.injEq]
    omega

end Grammar

/-- The literal without its sign. -/
def decimal (l : NumberLiteral) : DecimalText :=
  ⟨natOfDigits (l.whole ++ l.fraction), l.exponent - l.fraction.length⟩

/-- The double nearest to the literal, which is not always the one it is read as. -/
def nearest (l : NumberLiteral) : Float :=
  ofMagnitude l.negative l.decimal.bits

/-- A literal that is not an integer, of a sign and a value. -/
structure IsReal (negative : Bool) (value : ℚ) (l : NumberLiteral) : Prop where
  negative : l.negative = negative
  isInteger : l.isInteger = false
  value : l.decimal.value = value

theorem nearest_eq {x : Float} (h : IsFinite x) {l : NumberLiteral} (hsign : l.negative = signBit x)
    (hbits : l.decimal.bits = magnitudeBits x) : l.nearest = x := by
  rw [nearest, hsign, hbits, ofMagnitude_bits (isNaN_of_isFinite h)]

section Layout

variable {negative : Bool} {whole fraction digits : List Char}

theorem unsigned?_point (hwhole : ∀ c ∈ whole, c.isDigit = true) (hvalid : isWhole whole = true)
    (hfraction : ∀ c ∈ fraction, c.isDigit = true) (hne : fraction ≠ []) :
    parse?.unsigned? negative (whole ++ '.' :: fraction) =
      some ⟨negative, whole, fraction, 0, false⟩ := by
  obtain ⟨taken, dropped⟩ := span_digits hfraction (by simp : ∀ c ∈ [].head?, _)
  rw [List.append_nil] at taken dropped
  rw [unsigned?_append hwhole hvalid (by simp)]
  simp only [afterWhole?, taken, dropped, hne, if_false]

/-- The exponent as it is written after the letter. -/
def powerChars (e : Int) : List Char :=
  'e' :: ((if e < 0 then ['-'] else ['+']) ++ Nat.toDigits 10 e.natAbs)

theorem unsigned?_power (hwhole : ∀ c ∈ whole, c.isDigit = true) (hvalid : isWhole whole = true)
    (e : Int) : parse?.unsigned? negative (whole ++ powerChars e) =
      some ⟨negative, whole, [], e, false⟩ := by
  rw [unsigned?_append hwhole hvalid (by simp [powerChars])]
  simp [powerChars, afterWhole?, exponent?_toDigits]

theorem unsigned?_point_power (hwhole : ∀ c ∈ whole, c.isDigit = true)
    (hvalid : isWhole whole = true) (hfraction : ∀ c ∈ fraction, c.isDigit = true)
    (hne : fraction ≠ []) (e : Int) :
    parse?.unsigned? negative (whole ++ '.' :: (fraction ++ powerChars e)) =
      some ⟨negative, whole, fraction, e, false⟩ := by
  obtain ⟨taken, dropped⟩ := span_digits hfraction
    (by simp [powerChars] : ∀ c ∈ (powerChars e).head?, c.isDigit = false)
  rw [unsigned?_append hwhole hvalid (by simp)]
  simp only [afterWhole?, taken, dropped, hne, if_false]
  simp only [powerChars, true_or, if_true, exponent?_toDigits, Option.map_some]

theorem isDigit_of_mem_replicate (n : Nat) : ∀ c ∈ List.replicate n '0', c.isDigit = true := by
  intro c hc
  rw [List.eq_of_mem_replicate hc]
  rfl

theorem isDigit_append {front back : List Char} (hfront : ∀ c ∈ front, c.isDigit = true)
    (hback : ∀ c ∈ back, c.isDigit = true) : ∀ c ∈ front ++ back, c.isDigit = true := by
  intro c hc
  rcases List.mem_append.1 hc with hc | hc
  · exact hfront c hc
  · exact hback c hc

theorem withPoint_of_ne_nil (whole : List Char) (hne : fraction ≠ []) :
    NumberLayout.withPoint whole fraction = whole ++ '.' :: fraction := by
  cases fraction with
  | nil => contradiction
  | cons c rest => rfl

variable (hdigits : ∀ c ∈ digits, c.isDigit = true)

include hdigits

/-- Digits behind the zeros of a small number. -/
theorem unsigned?_small (hne : digits ≠ []) (n : Nat) : ∃ l,
    parse?.unsigned? negative ('0' :: '.' :: (List.replicate n '0' ++ digits)) = some l ∧
      l.IsReal negative (natOfDigits digits * 10 ^ (Int.negSucc n - (digits.length - 1))) := by
  have hread : parse?.unsigned? negative (['0'] ++ '.' :: (List.replicate n '0' ++ digits)) = _ :=
    unsigned?_point (by simp) rfl (isDigit_append (isDigit_of_mem_replicate n) hdigits)
      (List.append_ne_nil_of_right_ne_nil _ hne)
  refine ⟨_, hread, rfl, rfl, ?_⟩
  have hzero : natOfDigits ['0'] = 0 := rfl
  have hexponent : (0 : Int) - (List.replicate n '0' ++ digits).length =
      Int.negSucc n - (digits.length - 1) := by
    rw [List.length_append, List.length_replicate]
    omega
  simp only [DecimalText.value, decimal, hexponent, natOfDigits_append, hzero,
    natOfDigits_replicate, Nat.mul_zero, Nat.zero_add]

/-- Digits in front of the point are filled up with zeros. -/
theorem unsigned?_large (hlead : ∃ c rest, digits = c :: rest ∧ c ≠ '0') (n : Nat)
    {padded : List Char} (hpadded : padded = digits ++ List.replicate (n + 1 - digits.length) '0') :
    ∃ l, parse?.unsigned? negative (NumberLayout.withPoint (padded.take (n + 1))
        (if padded.drop (n + 1) = [] then ['0'] else padded.drop (n + 1))) = some l ∧
      l.IsReal negative (natOfDigits digits * 10 ^ ((n : Int) - (digits.length - 1))) := by
  have hall : ∀ c ∈ padded, c.isDigit = true := by
    rw [hpadded]
    exact isDigit_append hdigits (isDigit_of_mem_replicate _)
  have hvalid : isWhole (padded.take (n + 1)) = true := by
    obtain ⟨c, rest, rfl, hc⟩ := hlead
    rw [hpadded, List.cons_append]
    exact isWhole_take ⟨c, _, rfl, hc⟩ n
  have hlength : padded.length = digits.length + (n + 1 - digits.length) := by
    rw [hpadded, List.length_append, List.length_replicate]
  have hnumber : natOfDigits padded = 10 ^ (n + 1 - digits.length) * natOfDigits digits := by
    rw [hpadded, natOfDigits_append, List.length_replicate, natOfDigits_replicate, Nat.add_zero]
  have hwhole : ∀ c ∈ padded.take (n + 1), c.isDigit = true := fun c hc =>
    hall c (List.mem_of_mem_take hc)
  by_cases hfull : padded.drop (n + 1) = []
  · rw [if_pos hfull]
    refine ⟨_, unsigned?_point hwhole hvalid (by simp) (by simp), rfl, rfl, ?_⟩
    rw [List.drop_eq_nil_iff] at hfull
    have hexponent : (n : Int) - (digits.length - 1) = (n + 1 - digits.length : Nat) := by omega
    have hzero : natOfDigits ['0'] = 0 := rfl
    simp only [DecimalText.value, decimal, List.take_of_length_le hfull, natOfDigits_append,
      hnumber, hexponent, hzero, List.length_singleton, zpow_natCast]
    push_cast
    ring
  · rw [if_neg hfull]
    rw [withPoint_of_ne_nil _ hfull]
    refine ⟨_, unsigned?_point hwhole hvalid (fun c hc => hall c (List.mem_of_mem_drop hc)) hfull,
      rfl, rfl, ?_⟩
    rw [List.drop_eq_nil_iff] at hfull
    have hexponent : (0 : Int) - (padded.drop (n + 1)).length = n - (digits.length - 1) := by
      rw [List.length_drop]
      omega
    have hpad : n + 1 - digits.length = 0 := by omega
    simp only [DecimalText.value, decimal, hexponent, List.take_append_drop, hnumber, hpad,
      Nat.pow_zero, Nat.one_mul]

/-- One digit in front of the point, and an exponent. -/
theorem unsigned?_scientific (hlead : ∃ c rest, digits = c :: rest ∧ c ≠ '0') (e : Int) :
    ∃ l, parse?.unsigned? negative
        (NumberLayout.withPoint (digits.take 1) (digits.drop 1) ++ powerChars e) = some l ∧
      l.IsReal negative (natOfDigits digits * 10 ^ (e - (digits.length - 1))) := by
  have hvalid := isWhole_take hlead 0
  have hwhole : ∀ c ∈ digits.take 1, c.isDigit = true := fun c hc =>
    hdigits c (List.mem_of_mem_take hc)
  have hpos : 0 < digits.length := by
    obtain ⟨c, rest, rfl, -⟩ := hlead
    simp
  by_cases hsingle : digits.drop 1 = []
  · rw [hsingle, NumberLayout.withPoint]
    refine ⟨_, unsigned?_power hwhole hvalid e, rfl, rfl, ?_⟩
    rw [List.drop_eq_nil_iff] at hsingle
    have hexponent : e - (0 : Nat) = e - (digits.length - 1) := by omega
    simp only [DecimalText.value, decimal, List.append_nil, List.length_nil, hexponent,
      List.take_of_length_le hsingle]
  · rw [withPoint_of_ne_nil _ hsingle, List.append_assoc, List.cons_append]
    refine ⟨_, unsigned?_point_power hwhole hvalid
      (fun c hc => hdigits c (List.mem_of_mem_drop hc)) hsingle e, rfl, rfl, ?_⟩
    have hexponent : e - (digits.drop 1).length = e - (digits.length - 1) := by
      rw [List.length_drop]
      omega
    simp only [DecimalText.value, decimal, hexponent, List.take_append_drop]

/-- Digits that are set out are read as their number, moved to the exponent of the first. -/
theorem unsigned?_setOut (hlead : ∃ c rest, digits = c :: rest ∧ c ≠ '0') (e : Int) :
    ∃ l, parse?.unsigned? negative (NumberLayout.json.setOut digits e) = some l ∧
      l.IsReal negative (natOfDigits digits * 10 ^ (e - (digits.length - 1))) := by
  have hne : digits ≠ [] := by
    obtain ⟨c, rest, rfl, -⟩ := hlead
    simp
  unfold NumberLayout.setOut
  split
  · cases e with
    | negSucc n => exact unsigned?_small hdigits hne n
    | ofNat n =>
      simp only [NumberLayout.json, true_and]
      exact unsigned?_large hdigits hlead n rfl
  · simp only [NumberLayout.json, if_true]
    exact unsigned?_scientific hdigits hlead e

end Layout

section Written

theorem head?_ne_minus {negative : Bool} {cs : List Char} {l : NumberLiteral}
    (h : parse?.unsigned? negative cs = some l) : cs.head? ≠ some '-' := by
  cases cs with
  | nil => simp
  | cons c cs =>
    rintro ⟨⟩
    contradiction

/-- The text of a finite double other than zero is a literal with that double as its nearest. -/
theorem parse?_chars {x : Float} (h : IsFinite x) (hzero : magnitudeBits x ≠ 0) :
    ∃ l, parse? (NumberLayout.json.chars x) = some l ∧ l.isInteger = false ∧ l.nearest = x := by
  obtain ⟨significand, exponent, hofFloat, canonical, hbits⟩ := ofFloat_of_isFinite h
  have hsignificand : significand ≠ 0 := by
    have := canonical.normal
    omega
  have hshortest := bits_shortestDecimal h hofFloat .even
  have hlead := toDigits_eq_cons (DecimalText.coefficient_pos (by rwa [hshortest]))
  simp only [NumberLayout.chars, hofFloat, if_neg hsignificand]
  rw [show NumberLayout.json.tie = .even from rfl]
  generalize shortestDecimal .even (magnitudeBits x) significand exponent = shortest at *
  set power := shortest.exponent + Int.ofNat (Nat.toDigits 10 shortest.coefficient).length - 1
    with hpower
  obtain ⟨l, hread, hsign, hreal, hvalue⟩ : ∃ l,
      parse?.unsigned? (signBit x) (NumberLayout.json.setOut
        (Nat.toDigits 10 shortest.coefficient) power) = some l ∧ l.IsReal (signBit x) _ :=
    unsigned?_setOut isDigit_of_mem_toDigits hlead power
  refine ⟨l, by rw [parse?_sign _ (head?_ne_minus hread), hread], hreal, ?_⟩
  have hdecimal : l.decimal.value = shortest.value := by
    rw [hvalue, natOfDigits_toDigits, DecimalText.value]
    congr 2
    rw [hpower, Int.ofNat_eq_natCast]
    omega
  exact nearest_eq h hsign ((DecimalText.bits_congr hdecimal).trans hshortest)

/-- The text of a small integer is read as that integer. -/
theorem parse?_integerChars {n : Int} (h : n.natAbs < 2 ^ 53) :
    ∃ l, parse? (integerChars n) = some l ∧ l.number? = some (.integer n) ∧
      l.nearest = doubleOfInt n := by
  have hread : ∀ (negative : Bool) (m : Nat), parse?.unsigned? negative (Nat.toDigits 10 m) =
      some ⟨negative, Nat.toDigits 10 m, [], 0, true⟩ := by
    intro negative m
    rw [← List.append_nil (Nat.toDigits 10 m),
      unsigned?_append isDigit_of_mem_toDigits (isWhole_toDigits m) (by simp), afterWhole?,
      List.append_nil]
  have hnearest : ∀ (negative : Bool) (m : Nat),
      nearest ⟨negative, Nat.toDigits 10 m, [], 0, true⟩ = nearestDouble negative m 1 := by
    intro negative m
    simp [nearest, decimal, DecimalText.bits, scaleByTen, nearestDouble]
  cases n with
  | ofNat n =>
    have hsign := parse?_sign false (head?_ne_minus (hread false n))
    refine ⟨_, hsign.trans (hread false n), ?_, hnearest false n⟩
    have hlt : n < 2 ^ 64 := Nat.lt_trans h (by decide)
    simp only [number?, natOfDigits_toDigits, Bool.not_false, hlt, and_self, if_true]
  | negSucc n =>
    have below : doubleOfInt (.negSucc n) = nearestDouble true (n + 1) 1 := by
      rw [doubleOfInt, decide_eq_true (Int.negSucc_lt_zero n), Int.natAbs_negSucc]
    refine ⟨_, hread true (n + 1), ?_, (hnearest true (n + 1)).trans below.symm⟩
    have hle : n + 1 ≤ 2 ^ 63 := Nat.le_of_lt (Nat.lt_trans h (by decide))
    simp only [number?, natOfDigits_toDigits, Bool.not_true, Bool.false_eq_true, false_and,
      and_false, if_false, Nat.zero_lt_succ, hle, and_self, if_true]
    rfl

end Written

end NumberLiteral

/-- The text that JSON has for the double is read as that double. The reader rounds more than once,
so it takes some doubles of many digits for their neighbours. -/
def SurvivesText (x : Float) : Prop :=
  ((NumberLiteral.parse? (NumberLayout.json.chars x)).bind NumberLiteral.double?).map Float.toBits =
    some x.toBits

instance : DecidablePred SurvivesText := fun x =>
  inferInstanceAs (Decidable (Option.map _ _ = some x.toBits))

theorem SurvivesText.double?_eq {x : Float} (h : SurvivesText x) {l : NumberLiteral}
    (hread : NumberLiteral.parse? (NumberLayout.json.chars x) = some l) : l.double? = some x := by
  rw [SurvivesText, hread, Option.bind_some] at h
  obtain ⟨y, hy, hbits⟩ := Option.map_eq_some_iff.1 h
  rw [hy, eq_of_toBits_eq hbits]

/-- What is written for a finite double is a literal with that double as its nearest, up to the sign
of a zero, and an integer or a text that is read as the double. -/
theorem exists_literal {x : Float} (h : IsFinite x) : ∃ n l,
    FieldValue.toJson (.number x) = .number n ∧ NumberLiteral.parse? n.chars = some l ∧
      Alike l.nearest x ∧ ((FieldValue.wholeJson? x = none → SurvivesText x) →
        ∃ m, l.number? = some m ∧ Alike m.toDouble x) := by
  unfold FieldValue.toJson
  simp only
  cases hwhole : FieldValue.wholeJson? x with
  | some n =>
    unfold FieldValue.wholeJson? at hwhole
    split at hwhole
    · next m hm =>
      split at hwhole
      · next hsmall =>
        cases hwhole
        obtain ⟨l, hread, hnumber, hnearest⟩ := NumberLiteral.parse?_integerChars hsmall
        have alike := alike_doubleOfInt h hm
        exact ⟨_, l, rfl, hread, hnearest ▸ alike, fun _ => ⟨_, hnumber, alike⟩⟩
      · contradiction
    · contradiction
  | none =>
    have hzero : magnitudeBits x ≠ 0 := by
      intro hzero
      simp only [FieldValue.wholeJson?, wholeValue?_zero hzero] at hwhole
      contradiction
    obtain ⟨l, hread, hreal, hnearest⟩ := NumberLiteral.parse?_chars h hzero
    refine ⟨_, l, rfl, hread, .inl hnearest, fun survives => ⟨.real x, ?_, .refl x⟩⟩
    simp [NumberLiteral.number?, hreal, (survives rfl).double?_eq hread]

end CampusQuery
