import PolyDeriv.Poly.Basic

/-!
# Powers

A power is a variable with an exponent.  Powers are ordered alphabetically by variable, and powers of one variable by
exponent, so that in an ascending list every power occurs once (`Power.lt_trichotomy`, `Power.lt_irrefl`,
`Power.lt_trans`).
-/

namespace PolyDeriv

/-- A power of a variable. -/
structure Power where
  symbol : String
  exponent : Int64
deriving DecidableEq

namespace Power

instance : LT Power where
  lt p q := p.symbol < q.symbol ∨ p.symbol = q.symbol ∧ p.exponent < q.exponent

theorem lt_iff {p q : Power} :
    p < q ↔ p.symbol < q.symbol ∨ p.symbol = q.symbol ∧ p.exponent < q.exponent := Iff.rfl

instance (p q : Power) : Decidable (p < q) := inferInstanceAs (Decidable (_ ∨ _))

theorem lt_irrefl (p : Power) : ¬ p < p := by
  rintro (h | ⟨-, h⟩)
  · exact String.lt_irrefl _ h
  · exact Int64.lt_irrefl h

theorem lt_trans {p q r : Power} (hpq : p < q) (hqr : q < r) : p < r := by
  rw [lt_iff] at *
  rcases hpq with hs | ⟨hs, he⟩
  · rcases hqr with ht | ⟨ht, -⟩
    · exact .inl (String.lt_trans hs ht)
    · exact .inl (ht ▸ hs)
  · rcases hqr with ht | ⟨ht, hf⟩
    · exact .inl (hs ▸ ht)
    · exact .inr ⟨hs.trans ht, Int64.lt_trans he hf⟩

theorem lt_trichotomy (p q : Power) : p < q ∨ p = q ∨ q < p := by
  have hs : p.symbol < q.symbol ∨ p.symbol = q.symbol ∨ q.symbol < p.symbol := by
    by_cases h : p.symbol < q.symbol
    · exact .inl h
    · by_cases h' : q.symbol < p.symbol
      · exact .inr (.inr h')
      · exact .inr (.inl (String.le_antisymm h' h))
  rcases hs with hs | hs | hs
  · exact .inl (.inl hs)
  · by_cases he : p.exponent = q.exponent
    · refine .inr (.inl ?_)
      cases p
      cases q
      simp_all
    · rcases Int64.lt_or_lt_of_ne he with he | he
      · exact .inl (.inr ⟨hs, he⟩)
      · exact .inr (.inr (.inr ⟨hs.symm, he⟩))
  · exact .inr (.inr (.inl hs))

/-- A multiple of a power; a factor of one is not written. -/
def scale (coefficient : Int64) (p : Power) : Poly :=
  if coefficient = 1 then .monomial p.symbol p.exponent else .product coefficient (.monomial p.symbol p.exponent)

end Power
end PolyDeriv
