import Mathlib.Tactic.Ring
import PolyDeriv.Proofs.Denotation

/-!
# Integer tokens

An integer token is worth what its digits are worth at their places (`IsNumeral`).  It is read as exactly that if the
64-bit range allows, however many digits there are, and otherwise the side on which it is out of range is told
(`readInteger_eq_ok_iff_isNumeral`, `readInteger_eq_error_iff`).  Superfluous zeros change nothing (`readInteger_zeros`),
since texts that are worth the same are read alike (`readInteger_congr`).
-/

namespace PolyDeriv

/-! ### Place values -/

/-- What digits are worth: each one counts ten times as much as it would one place further on. -/
def Decimal.placeValue : List Char → Nat
  | [] => 0
  | c :: cs => (c.toNat - '0'.toNat) * 10 ^ cs.length + placeValue cs

open Decimal (placeValue)

/-- A text that consists of one or more digits, perhaps behind a minus sign, and what it is worth. -/
def IsNumeral (text : String) (value : Int) : Prop :=
  ∃ digits, digits ≠ [] ∧ (∀ c ∈ digits, c.isDigit) ∧
    (text.toList = digits ∧ value = placeValue digits ∨ text.toList = '-' :: digits ∧ value = -placeValue digits)

namespace Decimal

/-- Accumulating digits from the left gives their place value. -/
theorem ofDigitChars_eq_placeValue (digits : List Char) : Nat.ofDigitChars 10 digits 0 = placeValue digits := by
  induction digits with
  | nil => rfl
  | cons c cs ih =>
    rw [Nat.ofDigitChars_cons, Nat.ofDigitChars_eq_ofDigitChars_zero, ih, placeValue]
    ring

private theorem placeValue_zeros (k : Nat) (digits : List Char) :
    placeValue (List.replicate k '0' ++ digits) = placeValue digits := by
  induction k with
  | zero => rfl
  | succ k ih => rw [List.replicate_succ, List.cons_append, placeValue, ih, Nat.sub_self, Nat.zero_mul, Nat.zero_add]

end Decimal

variable {text : String} {value : Int}

private theorem spells_iff_isNumeral : Spells text.toList value ↔ IsNumeral text value := by
  simp only [IsNumeral, ← Decimal.ofDigitChars_eq_placeValue]
  generalize text.toList = cs
  constructor
  · rintro (⟨ne, all_digits⟩ | ⟨ne, all_digits⟩)
    · exact ⟨_, ne, all_digits, .inl ⟨rfl, rfl⟩⟩
    · exact ⟨_, ne, all_digits, .inr ⟨rfl, rfl⟩⟩
  · rintro ⟨digits, ne, all_digits, ⟨rfl, rfl⟩ | ⟨rfl, rfl⟩⟩
    · exact .natural ne all_digits
    · exact .negative ne all_digits

section

variable {digits : List Char} (ne : digits ≠ []) (all_digits : ∀ c ∈ digits, c.isDigit)

include ne all_digits

private theorem isNumeral_digits_iff : IsNumeral (String.ofList digits) value ↔ value = placeValue digits := by
  rw [IsNumeral, String.toList_ofList]
  constructor
  · rintro ⟨_, _, _, ⟨rfl, rfl⟩ | ⟨rfl, _⟩⟩
    · rfl
    · exact absurd (all_digits '-' List.mem_cons_self) (by decide)
  · rintro rfl
    exact ⟨digits, ne, all_digits, .inl ⟨rfl, rfl⟩⟩

private theorem isNumeral_negative_iff :
    IsNumeral (String.ofList ('-' :: digits)) value ↔ value = -placeValue digits := by
  rw [IsNumeral, String.toList_ofList]
  constructor
  · rintro ⟨_, _, minus_digit, ⟨rfl, _⟩ | ⟨same, rfl⟩⟩
    · exact absurd (minus_digit '-' List.mem_cons_self) (by decide)
    · rw [(List.cons.inj same).2]
  · rintro rfl
    exact ⟨digits, ne, all_digits, .inr ⟨rfl, rfl⟩⟩

end

/-! ### Reading -/

private theorem fits_iff {n : Int} : Fits n ↔ -2 ^ 63 ≤ n ∧ n ≤ 2 ^ 63 - 1 := Iff.rfl

theorem readInteger_eq_ok_iff_isNumeral {n : Int64} : readInteger text = .ok n ↔ IsNumeral text n.toInt := by
  rw [readInteger_eq_ok_iff, spells_iff_isNumeral]

theorem exists_readInteger_iff : (∃ n, readInteger text = .ok n) ↔ ∃ value, IsNumeral text value ∧ Fits value := by
  simp only [readInteger_eq_ok_iff_isNumeral]
  constructor
  · rintro ⟨n, numeral⟩
    exact ⟨n.toInt, numeral, fits_toInt n⟩
  · rintro ⟨value, numeral, fits⟩
    exact ⟨Int64.ofIntLE value fits.1 fits.2, by rwa [Int64.toInt_ofIntLE]⟩

theorem isNumeral_iff_accepts :
    IsNumeral text value ↔ TokenClass.integer.accepts text ∧ Decimal.value text.toList = value := by
  rw [← spells_iff_isNumeral, spells_iff, accepts_integer_iff]

theorem readInteger_of_not_isNumeral (none : ∀ value, ¬ IsNumeral text value) :
    readInteger text = .error .malformed := by
  have refused : ¬ TokenClass.integer.accepts text := fun accepted => none _ (isNumeral_iff_accepts.2 ⟨accepted, rfl⟩)
  rw [readInteger, if_neg refused]

theorem readInteger_of_not_fits (numeral : IsNumeral text value) (unfit : ¬ Fits value) :
    readInteger text = .error (if value < 0 then .tooSmall else .tooLarge) := by
  obtain ⟨accepted, rfl⟩ := isNumeral_iff_accepts.1 numeral
  rw [readInteger, if_pos accepted, narrow?_eq_none_iff.2 unfit]

/-- A text that is not read is worth nothing at all, or it is worth too much or too little. -/
theorem readInteger_eq_error_iff {fault : IntegerFault} : readInteger text = .error fault ↔
    fault = .malformed ∧ (∀ value, ¬ IsNumeral text value) ∨
      ∃ value, IsNumeral text value ∧
        (fault = .tooLarge ∧ 2 ^ 63 - 1 < value ∨ fault = .tooSmall ∧ value < -2 ^ 63) := by
  constructor
  · intro h
    by_cases none : ∀ value, ¬ IsNumeral text value
    · rw [readInteger_of_not_isNumeral none] at h
      exact .inl ⟨(Except.error.inj h).symm, none⟩
    · obtain ⟨value, numeral⟩ := not_forall_not.1 none
      have unfit : ¬ Fits value := by
        intro fits
        obtain ⟨n, hn⟩ := exists_readInteger_iff.2 ⟨value, numeral, fits⟩
        exact absurd (h.symm.trans hn) (by simp)
      rw [readInteger_of_not_fits numeral unfit] at h
      obtain rfl := Except.error.inj h
      rw [fits_iff] at unfit
      refine .inr ⟨value, numeral, ?_⟩
      split
      · exact .inr ⟨rfl, by omega⟩
      · exact .inl ⟨rfl, by omega⟩
  · rintro (⟨rfl, none⟩ | ⟨value, numeral, ⟨rfl, large⟩ | ⟨rfl, small⟩⟩)
    · exact readInteger_of_not_isNumeral none
    · rw [readInteger_of_not_fits numeral (by rw [fits_iff]; omega), if_neg (by omega)]
    · rw [readInteger_of_not_fits numeral (by rw [fits_iff]; omega), if_pos (by omega)]

/-- Texts that are worth the same are read alike. -/
theorem readInteger_congr {other : String} (h : ∀ value, IsNumeral text value ↔ IsNumeral other value) :
    readInteger text = readInteger other := by
  cases result : readInteger other with
  | ok n => rwa [readInteger_eq_ok_iff_isNumeral, h, ← readInteger_eq_ok_iff_isNumeral]
  | error fault =>
    rw [readInteger_eq_error_iff] at result ⊢
    simpa only [h] using result

/-- Superfluous zeros make no difference. -/
theorem readInteger_zeros (k : Nat) {digits : List Char} (ne : digits ≠ []) (all_digits : ∀ c ∈ digits, c.isDigit) :
    readInteger (String.ofList (List.replicate k '0' ++ digits)) = readInteger (String.ofList digits) ∧
      readInteger (String.ofList ('-' :: (List.replicate k '0' ++ digits))) =
        readInteger (String.ofList ('-' :: digits)) := by
  have longer_ne : List.replicate k '0' ++ digits ≠ [] := List.append_ne_nil_of_right_ne_nil _ ne
  have longer_digits : ∀ c ∈ List.replicate k '0' ++ digits, c.isDigit := by
    refine List.forall_mem_append.2 ⟨fun c hc => ?_, all_digits⟩
    rw [List.eq_of_mem_replicate hc]
    rfl
  constructor
  · refine readInteger_congr fun value => ?_
    rw [isNumeral_digits_iff longer_ne longer_digits, isNumeral_digits_iff ne all_digits, Decimal.placeValue_zeros]
  · refine readInteger_congr fun value => ?_
    rw [isNumeral_negative_iff longer_ne longer_digits, isNumeral_negative_iff ne all_digits, Decimal.placeValue_zeros]

/-! ### Tokens in expressions -/

namespace Poly

/-- An integer that cannot be read is the fault of the expression around it. -/
theorem meaning_of_readInteger_error {fault : IntegerFault} (h : readInteger text = .error fault) :
    meaning (.atom text) = .error (.integer .constant fault) ∧
    (∀ head symbol, head = "^" ∨ head = "mon" → IsSymbol symbol →
      meaning (.list [.atom head, .atom symbol, .atom text]) =
        .error (.exponent (.atom text) (.integer .exponent fault))) ∧
    ∀ head e, head = "*" ∨ head = "prod" →
      meaning (.list [.atom head, .atom text, e]) = .error (.left (.atom text) (.integer .constant fault)) := by
  have constant : meaning (.atom text) = .error (.integer .constant fault) := by rw [meaning, h]
  refine ⟨constant, fun head symbol hhead hsymbol => ?_, fun head e hhead => ?_⟩
  · have form : Form.ofHead? (.atom head) = some .monomial := Form.ofHead?_eq_some_iff.2 ⟨head, rfl, hhead⟩
    rw [meaning, form]
    simp only [ofPowerOperands, accepts_symbol_iff.2 hsymbol, if_true, h]
  · rw [meaning_product hhead, constant]

end Poly

/-- An integer token is read if it consists of digits, perhaps behind a minus sign, and what they are worth is in the
64-bit range; it is read as exactly that.  Otherwise the fault is that it has another shape, or that it is too large, or
too small, and the expression around it reports so in these words.  Superfluous zeros make no difference, and every
integer is read back as what it was, wherever it has been written. -/
theorem readInteger_exact :
    (∀ text : String,
      ((∃ n, readInteger text = .ok n) ↔ ∃ value, IsNumeral text value ∧ -2 ^ 63 ≤ value ∧ value ≤ 2 ^ 63 - 1) ∧
      (∀ n, readInteger text = .ok n ↔ IsNumeral text n.toInt) ∧
      ∀ fault, (readInteger text = .error fault ↔
          fault = .malformed ∧ (∀ value, ¬ IsNumeral text value) ∨
            ∃ value, IsNumeral text value ∧
              (fault = .tooLarge ∧ 2 ^ 63 - 1 < value ∨ fault = .tooSmall ∧ value < -2 ^ 63)) ∧
        (readInteger text = .error fault → Poly.meaning (.atom text) = .error (.integer .constant fault) ∧
          (∀ head symbol, head = "^" ∨ head = "mon" → IsSymbol symbol →
            Poly.meaning (.list [.atom head, .atom symbol, .atom text]) =
              .error (.exponent (.atom text) (.integer .exponent fault))) ∧
          ∀ head e, head = "*" ∨ head = "prod" → Poly.meaning (.list [.atom head, .atom text, e]) =
            .error (.left (.atom text) (.integer .constant fault)))) ∧
    (∀ role, (SemanticFault.integer role .tooLarge).message =
        role.name ++ " out of range: number too large to fit in target type" ∧
      (SemanticFault.integer role .tooSmall).message =
        role.name ++ " out of range: number too small to fit in target type") ∧
    (∀ k digits, digits ≠ [] → (∀ c ∈ digits, c.isDigit) →
      readInteger (String.ofList (List.replicate k '0' ++ digits)) = readInteger (String.ofList digits) ∧
      readInteger (String.ofList ('-' :: (List.replicate k '0' ++ digits))) =
        readInteger (String.ofList ('-' :: digits))) ∧
    ∀ n : Int64, ∃ text, readInteger text = .ok n ∧ (Poly.constant n).toSExpr = .atom text ∧
      ∀ s p, (Poly.monomial s n).toSExpr = .list [.atom "^", .atom s, .atom text] ∧
        (Poly.product n p).toSExpr = .list [.atom "*", .atom text, p.toSExpr] := by
  refine ⟨fun text => ⟨exists_readInteger_iff, fun n => readInteger_eq_ok_iff_isNumeral, fun fault => ?_⟩,
    fun role => ⟨rfl, rfl⟩, fun k digits => readInteger_zeros k, fun n => ?_⟩
  · exact ⟨readInteger_eq_error_iff, Poly.meaning_of_readInteger_error⟩
  · exact ⟨writeInteger n, readInteger_write n, rfl, fun s p => ⟨rfl, rfl⟩⟩

/-- The least integer behind zeros, and the integers on either side of the range, one of them as an exponent. -/
theorem readInteger_exact_limits :
    let digits := "9223372036854775808".toList
    (digits ≠ [] ∧ (∀ c ∈ digits, c.isDigit) ∧
      readInteger (String.ofList ('-' :: (List.replicate 30 '0' ++ digits))) = .ok (-9223372036854775808)) ∧
    (IsNumeral "9223372036854775808" 9223372036854775808 ∧
      readInteger "9223372036854775808" = .error .tooLarge) ∧
    (IsNumeral "-9223372036854775809" (-9223372036854775809) ∧
      readInteger "-9223372036854775809" = .error .tooSmall ∧ IsSymbol "x" ∧
      Poly.meaning (.list [.atom "^", .atom "x", .atom "-9223372036854775809"]) =
        .error (.exponent (.atom "-9223372036854775809") (.integer .exponent .tooSmall))) := by
  intro digits
  obtain ⟨reading, -, zeros, -⟩ := readInteger_exact
  have all_digits : ∀ c ∈ digits, c.isDigit := List.all_eq_true.1 rfl
  have least : readInteger (String.ofList ('-' :: digits)) = .ok (-9223372036854775808) := by decide +kernel
  have above : IsNumeral "9223372036854775808" 9223372036854775808 :=
    ⟨digits, by decide, all_digits, .inl ⟨rfl, by decide +kernel⟩⟩
  have below : IsNumeral "-9223372036854775809" (-9223372036854775809) :=
    ⟨"9223372036854775809".toList, by decide, List.all_eq_true.1 rfl, .inr ⟨rfl, by decide +kernel⟩⟩
  have symbol : IsSymbol "x" := accepts_symbol_iff.1 (by decide +kernel)
  have too_large := ((reading _).2.2 .tooLarge).1.2 (.inr ⟨_, above, .inl ⟨rfl, by decide⟩⟩)
  have too_small := ((reading _).2.2 .tooSmall).1.2 (.inr ⟨_, below, .inr ⟨rfl, by decide⟩⟩)
  have exponent := (((reading _).2.2 .tooSmall).2 too_small).2.1 "^" "x" (.inl rfl) symbol
  exact ⟨⟨by decide, all_digits, (zeros 30 digits (by decide) all_digits).2.trans least⟩, ⟨above, too_large⟩, below,
    too_small, symbol, exponent⟩

end PolyDeriv
