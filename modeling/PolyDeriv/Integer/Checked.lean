/-!
# Exact arithmetic on 64-bit integers

Coefficients, exponents and constants are `Int64` values, read through `Int64.toInt`.  An operation is carried out
in the integers and its result brought back by `narrow?`, which fails exactly when the result lies outside the
64-bit range (`narrow?_eq_some_iff`, `narrow?_eq_none_iff`); nothing ever wraps around.
-/

namespace PolyDeriv

theorem toInt_eq_zero_iff {a : Int64} : a.toInt = 0 ↔ a = 0 := by
  rw [← Int64.toInt_zero, Int64.toInt_inj]

/-- The integers that have a 64-bit form. -/
def Fits (n : Int) : Prop := Int64.minValue.toInt ≤ n ∧ n ≤ Int64.maxValue.toInt

instance (n : Int) : Decidable (Fits n) := inferInstanceAs (Decidable (_ ∧ _))

theorem fits_toInt (a : Int64) : Fits a.toInt := ⟨a.minValue_le_toInt, a.toInt_le⟩

theorem fits_zero : Fits 0 := by decide

/-- The 64-bit form of an integer, if there is one. -/
def narrow? (n : Int) : Option Int64 := if h : Fits n then some (Int64.ofIntLE n h.1 h.2) else none

theorem narrow?_eq_some_iff {n : Int} {a : Int64} : narrow? n = some a ↔ a.toInt = n := by
  unfold narrow?
  split
  · next h =>
    rw [Option.some_inj]
    constructor
    · rintro rfl
      exact Int64.toInt_ofIntLE
    · rintro rfl
      exact Int64.ofIntLE_toInt a
  · next h =>
    simp only [reduceCtorEq, false_iff]
    rintro rfl
    exact h (fits_toInt a)

theorem narrow?_eq_none_iff {n : Int} : narrow? n = none ↔ ¬ Fits n := by
  simp [narrow?]

@[simp] theorem narrow?_toInt (a : Int64) : narrow? a.toInt = some a := narrow?_eq_some_iff.2 rfl

/-- A computation whose exact result has no 64-bit form. -/
inductive Overflow
  | product (left right : Int64)
  | sum (left right : Int64)
  | predecessor (exponent : Int64)
deriving DecidableEq

/-- The exact product of two integers. -/
def exactProduct (a b : Int64) : Except Overflow Int64 :=
  match narrow? (a.toInt * b.toInt) with
  | some c => .ok c
  | none => .error (.product a b)

/-- The exact sum of two integers. -/
def exactSum (a b : Int64) : Except Overflow Int64 :=
  match narrow? (a.toInt + b.toInt) with
  | some c => .ok c
  | none => .error (.sum a b)

/-- The exponent below the given one. -/
def predecessor (e : Int64) : Except Overflow Int64 :=
  match narrow? (e.toInt - 1) with
  | some c => .ok c
  | none => .error (.predecessor e)

private theorem narrow_ok_iff {n : Int} {e : Overflow} {c : Int64} :
    (match narrow? n with | some c => Except.ok c | none => .error e) = .ok c ↔ c.toInt = n := by
  rw [← narrow?_eq_some_iff]
  cases narrow? n <;> simp

private theorem narrow_error_iff {n : Int} {e f : Overflow} :
    (match narrow? n with | some c => Except.ok c | none => .error e) = .error f ↔ ¬ Fits n ∧ e = f := by
  rw [← narrow?_eq_none_iff]
  cases narrow? n <;> simp

theorem exactProduct_eq_ok_iff {a b c : Int64} : exactProduct a b = .ok c ↔ c.toInt = a.toInt * b.toInt :=
  narrow_ok_iff

theorem exactProduct_eq_error_iff {a b : Int64} {e : Overflow} :
    exactProduct a b = .error e ↔ ¬ Fits (a.toInt * b.toInt) ∧ Overflow.product a b = e :=
  narrow_error_iff

theorem exists_exactProduct_iff {a b : Int64} : (∃ c, exactProduct a b = .ok c) ↔ Fits (a.toInt * b.toInt) := by
  cases h : exactProduct a b with
  | ok c => simpa [← exactProduct_eq_ok_iff.1 h] using fits_toInt c
  | error e => simpa using (exactProduct_eq_error_iff.1 h).1

theorem exactProduct_zero (a : Int64) : exactProduct a 0 = .ok 0 := by
  rw [exactProduct_eq_ok_iff, Int64.toInt_zero, Int.mul_zero]

theorem exactSum_eq_ok_iff {a b c : Int64} : exactSum a b = .ok c ↔ c.toInt = a.toInt + b.toInt :=
  narrow_ok_iff

theorem exactSum_eq_error_iff {a b : Int64} {e : Overflow} :
    exactSum a b = .error e ↔ ¬ Fits (a.toInt + b.toInt) ∧ Overflow.sum a b = e :=
  narrow_error_iff

theorem exists_exactSum_iff {a b : Int64} : (∃ c, exactSum a b = .ok c) ↔ Fits (a.toInt + b.toInt) := by
  cases h : exactSum a b with
  | ok c => simpa [← exactSum_eq_ok_iff.1 h] using fits_toInt c
  | error e => simpa using (exactSum_eq_error_iff.1 h).1

theorem predecessor_eq_ok_iff {e c : Int64} : predecessor e = .ok c ↔ c.toInt = e.toInt - 1 :=
  narrow_ok_iff

theorem exists_predecessor_iff {e : Int64} : (∃ c, predecessor e = .ok c) ↔ e ≠ Int64.minValue := by
  have least_le : Int64.minValue.toInt ≤ e.toInt := e.minValue_le_toInt
  constructor
  · rintro ⟨c, hc⟩ rfl
    have lower : c.toInt = Int64.minValue.toInt - 1 := predecessor_eq_ok_iff.1 hc
    have := c.minValue_le_toInt
    omega
  · intro h
    have above_least : e.toInt ≠ Int64.minValue.toInt := mt Int64.toInt_inj.1 h
    have fits : Fits (e.toInt - 1) := ⟨by omega, by have := e.toInt_le; omega⟩
    exact ⟨Int64.ofIntLE _ fits.1 fits.2, predecessor_eq_ok_iff.2 Int64.toInt_ofIntLE⟩

theorem predecessor_eq_error_iff {e : Int64} {f : Overflow} :
    predecessor e = .error f ↔ ¬ Fits (e.toInt - 1) ∧ Overflow.predecessor e = f :=
  narrow_error_iff

end PolyDeriv
