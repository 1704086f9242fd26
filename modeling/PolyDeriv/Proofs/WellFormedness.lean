import PolyDeriv.Operation
import PolyDeriv.Proofs.Derivative
import PolyDeriv.Proofs.Overflow
import PolyDeriv.Proofs.RoundTrip

/-!
# Well-formedness

No operation makes an ill-formed expression out of well-formed ones: each of them keeps `Poly.check`
(`Operation.wellFormed_apply`), although few of them look at what they return.  So no expression of a run is ever
ill-formed, and none of its operations meets one; an invariant is violated only where too few terms are to be added up
(`Run.wellFormed`).
-/

namespace PolyDeriv
namespace Poly

theorem isSymbol_of_check {p : Poly} (h : p.check = .ok ()) : ∀ r ∈ p.powers, IsSymbol r.symbol := by
  induction p with
  | constant c => simp [powers]
  | monomial s e =>
    intro r hr
    rw [List.mem_singleton.1 hr]
    exact check_monomial_iff.1 h
  | product c p ih =>
    rw [check] at h
    exact ih h
  | sum terms ih =>
    intro r hr
    obtain ⟨p, hp, hr⟩ := mem_powers_sum.1 hr
    exact ih p hp ((check_sum_iff.1 h).2 p hp) r hr

/-! ### Operations on expressions -/

/-- Working on the terms of a sum one by one leaves a sum of as many terms. -/
private theorem check_sum_of_forall₂ {ps qs : List Poly}
    (h : List.Forall₂ (fun p q => p.check = .ok () → q.check = .ok ()) ps qs) (checked : (sum ps).check = .ok ()) :
    (sum qs).check = .ok () := by
  obtain ⟨hlength, hterms⟩ := check_sum_iff.1 checked
  have results_checked : List.Forall₂ (fun _ q => q.check = .ok ()) ps qs :=
    forall₂_of_forall_mem h fun p hp q hq => hq (hterms p hp)
  exact check_sum_iff.2 ⟨h.length_eq ▸ hlength, forall_mem_of_forall₂ results_checked⟩

theorem check_derivative {v : String} {p d : Poly} (h : p.derivative v = .ok d) (checked : p.check = .ok ()) :
    d.check = .ok () := by
  refine derivative_induction (motive := fun p d => p.check = .ok () → d.check = .ok ()) ?_ ?_ ?_ ?_ ?_ h checked
  · intro c _
    rfl
  · intro hv
    exact hv
  · intro e lowered _ _ hv
    exact hv
  · intro c p d ih hp
    rw [check] at hp ⊢
    exact ih hp
  · intro ps ds ih
    exact check_sum_of_forall₂ ih

theorem check_distribute {m : Int64} {p q : Poly} (h : p.distribute m = .ok q) (checked : p.check = .ok ()) :
    q.check = .ok () := by
  refine distribute_induction (motive := fun _ p q => p.check = .ok () → q.check = .ok ()) ?_ ?_ ?_ ?_ ?_ h checked
  · intro p _
    rfl
  · intro m c k _ _ _
    rfl
  · intro m s e _ hs
    exact hs
  · intro m c k p q _ _ ih hp
    rw [check] at hp
    exact ih hp
  · intro m ps qs _ ih
    exact check_sum_of_forall₂ ih

theorem check_summands {p : Poly} (h : p.check = .ok ()) : ∀ t ∈ p.summands, t.check = .ok () := by
  induction p with
  | constant c => simpa [summands] using h
  | monomial s e => simpa [summands] using h
  | product c p => simpa [summands] using h
  | sum terms ih =>
    intro t ht
    rw [summands, summandsOfTerms_eq, List.mem_flatMap] at ht
    obtain ⟨p, hp, ht⟩ := ht
    exact ih p hp ((check_sum_iff.1 h).2 p hp) t ht

/-! ### Operations on lists of terms -/

section

variable {terms result : List Poly} {q : Poly}

theorem check_combine (h : combine terms = .ok result) (checked : ∀ t ∈ terms, t.check = .ok ()) :
    ∀ t ∈ result, t.check = .ok () := by
  obtain ⟨tally, total, htally, -, rfl⟩ := combine_eq_ok_iff.1 h
  intro t ht
  rw [List.mem_append, List.mem_append, List.mem_singleton] at ht
  rcases ht with (hcompound | hmultiple) | rfl
  · exact checked t (List.mem_filter.1 hcompound).1
  · -- the power stands in a term of the list, where its variable has been checked
    obtain ⟨entry, hentry, rfl⟩ := List.mem_map.1 hmultiple
    have in_tally : entry.1 ∈ tally.powers.map (·.1) := List.mem_map_of_mem (List.mem_filter.1 hentry).1
    obtain ⟨t, ht, -, hpower⟩ := (Tally.mem_powers_addTerms htally _).1 in_tally
    exact check_scale (isSymbol_of_check (checked t ht) _ hpower)
  · rfl

theorem check_withoutZeros (checked : ∀ t ∈ terms, t.check = .ok ()) : ∀ t ∈ withoutZeros terms, t.check = .ok () := by
  unfold withoutZeros
  split
  · exact checked
  · intro t ht
    exact checked t (List.mem_filter.1 ht).1

private theorem check_ofTerms (h : ofTerms terms = .ok q) : q.check = .ok () := by
  obtain ⟨hlength, checked, rfl⟩ := ofTerms_eq_ok_iff.1 h
  exact check_sum_iff.2 ⟨hlength, checked⟩

/-- A single term is not looked at, and has to be well-formed already. -/
theorem check_ofSummands (h : ofSummands terms = .ok q) (checked : ∀ t ∈ terms, t.check = .ok ()) :
    q.check = .ok () := by
  rcases ofSummands_eq_ok_iff.1 h with rfl | ⟨hlength, _, rfl⟩
  · exact checked q (List.mem_singleton_self q)
  · exact check_sum_iff.2 ⟨hlength, checked⟩

theorem ofTerms_eq_error_iff {fault : InvariantFault} (checked : ∀ t ∈ terms, t.check = .ok ()) :
    ofTerms terms = .error fault ↔ terms.length < 2 ∧ fault = .shortSum terms.length := by
  rw [ofTerms, check]
  split
  · next h => simp [Except.map, h, eq_comm]
  · next h => simp [Except.map, h, checkTerms_eq_ok_iff.2 checked]

theorem ofSummands_eq_error_iff {fault : InvariantFault} (checked : ∀ t ∈ terms, t.check = .ok ()) :
    ofSummands terms = .error fault ↔ terms = [] ∧ fault = .shortSum 0 := by
  unfold ofSummands
  split
  · simp
  · next not_single =>
    rw [ofTerms_eq_error_iff checked]
    constructor
    · rintro ⟨hlength, rfl⟩
      match terms, not_single, hlength with
      | [], _, _ => exact ⟨rfl, rfl⟩
      | [p], not_single, _ => exact absurd rfl (not_single p)
    · rintro ⟨rfl, rfl⟩
      exact ⟨by decide, rfl⟩

end

/-! ### Simplification and differentiation as a whole -/

theorem check_simplify {p q : Poly} (h : p.simplify = .ok q) (checked : p.check = .ok ()) : q.check = .ok () := by
  obtain ⟨d, terms, hd, hterms, hq⟩ := simplify_stages.1 h
  have distributed := check_summands (check_distribute hd checked)
  exact check_ofSummands hq (check_withoutZeros (check_combine hterms distributed))

theorem derivative_ne_invariant {v : String} {p : Poly} (fault : InvariantFault) :
    p.derivative v ≠ .error (.invariant fault) := by
  intro h
  rcases derivative_error_cases h with ⟨computation, hfault⟩ | ⟨r, -, -, hfault⟩
  · exact absurd hfault (by simp)
  · exact absurd hfault (by simp)

theorem simplify_ne_invariant {p : Poly} (checked : p.check = .ok ()) (fault : InvariantFault) :
    p.simplify ≠ .error (.invariant fault) := by
  intro h
  obtain ⟨computation, hfault⟩ := simplify_eq_error (isSymbol_of_check checked) h
  exact absurd hfault (by simp)

/-! ### Reading -/

private theorem checkedNode_sum {terms : List Poly} (h : 2 ≤ terms.length) :
    checkedNode (sum terms) = .ok (sum terms) := by
  rw [checkedNode, checkNode, if_neg (Nat.not_lt.2 h)]
  rfl

private theorem checkedNode_monomial {s : String} (h : IsSymbol s) (e : Int64) :
    checkedNode (monomial s e) = .ok (monomial s e) := by
  rw [checkedNode, checkNode, if_pos (accepts_symbol_iff.2 h)]
  rfl

private theorem buildTerms_eq {items : List SExpr} (h : ∀ e ∈ items, build e = (meaning e).mapError .semantic) :
    buildTerms items = (meaningOfTerms items).mapError .semantic := by
  induction items with
  | nil => rfl
  | cons e es ih =>
    have tail := ih fun f hf => h f (by simp [hf])
    rw [buildTerms, meaningOfTerms, h e (by simp), tail]
    cases meaning e with
    | error fault => rfl
    | ok p => cases meaningOfTerms es <;> rfl

/-- Every node that is built passes its check: arities and variables have been looked at before. -/
theorem build_eq (e : SExpr) : build e = (meaning e).mapError .semantic := by
  induction e with
  | atom text =>
    rw [build, meaning]
    cases readInteger text <;> rfl
  | list items ih =>
    cases items with
    | nil => rfl
    | cons head operands =>
      rw [build.eq_def, meaning.eq_def]
      dsimp only
      cases Form.ofHead? head with
      | none => rfl
      | some form =>
        cases form with
        | sum =>
          dsimp only
          split
          · rfl
          · next hlength =>
            rw [buildTerms_eq fun e he => ih e (by simp [he])]
            cases hterms : meaningOfTerms operands with
            | error fault => rfl
            | ok terms =>
              have same_length := (meaningOfTerms_eq_ok_iff.1 hterms).length_eq
              exact checkedNode_sum (same_length ▸ Nat.le_of_not_lt hlength)
        | monomial =>
          dsimp only
          cases hpower : ofPowerOperands operands with
          | error fault => rfl
          | ok p =>
            obtain ⟨symbol, text, e, -, hsymbol, -, rfl⟩ := ofPowerOperands_eq_ok_iff.1 hpower
            exact checkedNode_monomial hsymbol e
        | product =>
          -- only two operands make a multiple
          rcases operands with _ | ⟨left, _ | ⟨right, _ | ⟨third, rest⟩⟩⟩
          · rfl
          · rfl
          · dsimp only
            rw [ih left (by simp), ih right (by simp)]
            cases meaning left with
            | error fault => rfl
            | ok p =>
              cases p with
              | constant c => cases meaning right <;> rfl
              | monomial s e => rfl
              | product c p => rfl
              | sum terms => rfl
          · rfl

theorem buildSExpr_eq (e : SExpr) : buildSExpr e = ofSExpr e := by
  rw [buildSExpr, build_eq, ofSExpr]
  cases meaning e <;> rfl

theorem buildText_eq (text : String) : buildText text = Poly.read text := by
  rw [buildText, Poly.read, funext buildSExpr_eq]

theorem check_buildSExpr {e : SExpr} {p : Poly} (h : buildSExpr e = .ok p) : p.check = .ok () := by
  rw [buildSExpr_eq] at h
  exact check_of_denotes (ofSExpr_eq_ok_iff.1 h)

theorem check_buildText {text : String} {p : Poly} (h : buildText text = .ok p) : p.check = .ok () := by
  rw [buildText_eq] at h
  exact (check_depth_of_read h).1

theorem buildSExpr_ne_invariant {e : SExpr} (fault : InvariantFault) : buildSExpr e ≠ .error (.invariant fault) := by
  intro h
  rw [buildSExpr_eq] at h
  obtain ⟨_, _, hfault⟩ := mapError_eq_error_iff.1 h
  exact absurd hfault (by simp)

theorem buildText_ne_invariant {text : String} (fault : InvariantFault) :
    buildText text ≠ .error (.invariant fault) := by
  intro h
  have cases_of_error := bind_eq_error_iff (x := (SExpr.read text).mapError Error.parse) (f := buildSExpr)
    (e := .invariant fault)
  rcases cases_of_error.1 h with hparse | ⟨e, -, hbuild⟩
  · obtain ⟨_, _, hfault⟩ := mapError_eq_error_iff.1 hparse
    exact absurd hfault (by simp)
  · exact buildSExpr_ne_invariant fault hbuild

end Poly

/-! ### Operations and runs -/

namespace Operation

variable {values : List Value} {op : Operation}

/-- What an operation yields is well-formed if the values at hand are. -/
theorem wellFormed_apply (hvalues : ∀ x ∈ values, x.WellFormed) (applicable : op.Applicable values) {v : Value}
    (h : op.apply = .ok v) : v.WellFormed := by
  cases op with
  | ofSExpr e =>
    obtain ⟨p, hp, rfl⟩ := map_eq_ok_iff.1 h
    exact Poly.check_buildSExpr hp
  | read text =>
    obtain ⟨p, hp, rfl⟩ := map_eq_ok_iff.1 h
    exact Poly.check_buildText hp
  | derivative var p =>
    obtain ⟨d, hd, rfl⟩ := map_eq_ok_iff.1 h
    exact Poly.check_derivative hd (hvalues _ applicable)
  | simplify p =>
    obtain ⟨q, hq, rfl⟩ := map_eq_ok_iff.1 h
    exact Poly.check_simplify hq (hvalues _ applicable)
  | distribute factor p =>
    obtain ⟨q, hq, rfl⟩ := map_eq_ok_iff.1 h
    exact Poly.check_distribute (mapError_eq_ok_iff.1 hq) (hvalues _ applicable)
  | scale c p =>
    obtain rfl := Except.ok.inj h
    have checked : p.check = .ok () := hvalues _ applicable
    show (Poly.product c p).check = .ok ()
    rwa [Poly.check]
  | ofTerms terms =>
    obtain ⟨q, hq, rfl⟩ := map_eq_ok_iff.1 h
    exact Poly.check_ofTerms (mapError_eq_ok_iff.1 hq)
  | summands p =>
    obtain rfl := Except.ok.inj h
    exact Poly.check_summands (hvalues _ applicable)
  | append terms p =>
    obtain rfl := Except.ok.inj h
    have terms_checked : ∀ t ∈ terms, t.check = .ok () := hvalues _ applicable.1
    exact List.forall_mem_append.2 ⟨terms_checked, List.forall_mem_singleton.2 applicable.2⟩
  | combine terms =>
    obtain ⟨result, hresult, rfl⟩ := map_eq_ok_iff.1 h
    exact Poly.check_combine (mapError_eq_ok_iff.1 hresult) (hvalues _ applicable)
  | withoutZeros terms =>
    obtain rfl := Except.ok.inj h
    exact Poly.check_withoutZeros (hvalues _ applicable)
  | ofSummands terms =>
    obtain ⟨q, hq, rfl⟩ := map_eq_ok_iff.1 h
    exact Poly.check_ofSummands (mapError_eq_ok_iff.1 hq) (hvalues _ applicable)

/-- Among well-formed values, an operation violates an invariant if it lacks terms, and for no other reason. -/
theorem apply_eq_invariant_iff (hvalues : ∀ x ∈ values, x.WellFormed) (applicable : op.Applicable values) :
    (∃ fault, op.apply = .error (.invariant fault)) ↔ op.LacksTerms := by
  -- in most cases there is no such fault
  have never : (∀ fault, op.apply ≠ .error (.invariant fault)) → ¬ op.LacksTerms →
      ((∃ fault, op.apply = .error (.invariant fault)) ↔ op.LacksTerms) := fun none_violated enough =>
    iff_of_false (fun ⟨fault, h⟩ => none_violated fault h) enough
  cases op with
  | ofSExpr e => exact never (fun fault h => Poly.buildSExpr_ne_invariant fault (map_eq_error_iff.1 h)) id
  | read text => exact never (fun fault h => Poly.buildText_ne_invariant fault (map_eq_error_iff.1 h)) id
  | derivative var p => exact never (fun fault h => Poly.derivative_ne_invariant fault (map_eq_error_iff.1 h)) id
  | simplify p =>
    have checked : p.check = .ok () := hvalues _ applicable
    exact never (fun fault h => Poly.simplify_ne_invariant checked fault (map_eq_error_iff.1 h)) id
  | distribute factor p => exact never (by simp [apply, map_eq_error_iff, mapError_eq_error_iff]) id
  | scale c p => exact never (by simp [apply]) id
  | ofTerms terms =>
    have checked : ∀ t ∈ terms, t.check = .ok () := hvalues _ applicable
    simp [apply, LacksTerms, map_eq_error_iff, mapError_eq_error_iff, Poly.ofTerms_eq_error_iff checked]
  | summands p => exact never (by simp [apply]) id
  | append terms p => exact never (by simp [apply]) id
  | combine terms => exact never (by simp [apply, map_eq_error_iff, mapError_eq_error_iff]) id
  | withoutZeros terms => exact never (by simp [apply]) id
  | ofSummands terms =>
    have checked : ∀ t ∈ terms, t.check = .ok () := hvalues _ applicable
    simp [apply, LacksTerms, map_eq_error_iff, mapError_eq_error_iff, Poly.ofSummands_eq_error_iff checked]

end Operation

/-- All that is at hand in a run is well-formed, and its operations violate an invariant where they lack terms, and
nowhere else. -/
theorem Run.wellFormed {start final : List Value} {ops : List Operation} (hstart : ∀ x ∈ start, x.WellFormed)
    (run : Run start ops final) :
    (∀ x ∈ final, x.WellFormed) ∧ ∀ op ∈ ops, (∃ fault, op.apply = .error (.invariant fault)) ↔ op.LacksTerms := by
  induction run with
  | done values => exact ⟨hstart, by simp⟩
  | yield applicable h _ ih =>
    have yielded := Operation.wellFormed_apply hstart applicable h
    have violated := Operation.apply_eq_invariant_iff hstart applicable
    obtain ⟨hfinal, hops⟩ := ih (List.forall_mem_cons.2 ⟨yielded, hstart⟩)
    exact ⟨hfinal, List.forall_mem_cons.2 ⟨violated, hops⟩⟩
  | fail applicable _ _ ih =>
    have violated := Operation.apply_eq_invariant_iff hstart applicable
    obtain ⟨hfinal, hops⟩ := ih hstart
    exact ⟨hfinal, List.forall_mem_cons.2 ⟨violated, hops⟩⟩

/-- `x² + 3` is differentiated and taken apart, and what is left of it is too little for a sum; then zeros are removed
until nothing is left. -/
theorem Run.wellFormed_emptied :
    let square : Poly := .sum [.monomial "x" 2, .constant 3]
    let twice : Poly := .product 2 (.monomial "x" 1)
    let start : List Value := [.poly square, .terms [.constant 0, .constant 0]]
    let ops : List Operation := [.derivative "x" square, .summands (.sum [twice, .constant 0]),
      .withoutZeros [twice, .constant 0], .ofTerms [twice], .ofSummands [twice],
      .withoutZeros [.constant 0, .constant 0], .ofSummands []]
    let final : List Value := [.terms [], .poly twice, .terms [twice], .terms [twice, .constant 0],
      .poly (.sum [twice, .constant 0])] ++ start
    (∀ x ∈ start, x.WellFormed) ∧ Run start ops final ∧ (∀ x ∈ final, x.WellFormed) ∧
      ∀ op ∈ ops, (∃ fault, op.apply = .error (.invariant fault)) ↔ op.LacksTerms := by
  intro square twice start ops final
  have hstart : ∀ x ∈ start, x.WellFormed := by
    refine List.forall_mem_cons.2 ⟨?_, List.forall_mem_singleton.2 ?_⟩
    · show square.check = .ok ()
      decide +kernel
    · simp [Value.WellFormed, Poly.check]
  have zeros_at_hand : Value.terms [.constant 0, .constant 0] ∈ start :=
    List.mem_cons_of_mem _ (List.mem_singleton_self _)
  -- but for the zeros, each operation works on what the one before it has yielded
  have run : Run start ops final :=
    .yield List.mem_cons_self rfl <| .yield List.mem_cons_self rfl <| .yield List.mem_cons_self rfl <|
    .fail List.mem_cons_self rfl <| .yield List.mem_cons_self rfl <|
    .yield (List.mem_append_right [_, _, _, _] zeros_at_hand) rfl <| .fail List.mem_cons_self rfl <| .done final
  exact ⟨hstart, run, Run.wellFormed hstart run⟩

end PolyDeriv
