import PolyDeriv.Error
import PolyDeriv.Proofs.Reading
import Mathlib.Data.List.Induction

/-!
# The leftmost fault

What is wrong with a text can be told without reading it, by counting parentheses.  The number of lists that are open
is the number of parentheses that open more than close (`excess`), and from it follows what can be wrong with the next
token (`faultBehind?`).  The first token that is at fault decides on the whole text, and if there is none, the count at
the end does (`SExpr.read_leftmost`).

* The reader fails at a token exactly if counting finds a fault with it (`Reader.fault?_step`).
* Each token leaves the reader where counting says (`Reader.counted_step`).
-/

namespace PolyDeriv

/-! ### Counting -/

instance : DecidablePred IsAtom := fun _ => decidable_of_iff _ accepts_atom_iff

/-- How many more of the parentheses open than close. -/
def excess (tokens : List Token) : Int := tokens.count .opening - tokens.count .closing

/-- What is wrong with a token behind others, if these are in order. -/
def faultBehind? (front : List Token) (token : Token) : Option ParseFault :=
  if front ≠ [] ∧ excess front = 0 then some (.trailing token)
  else
    match token with
    | .opening => if excess front = 256 then some .tooDeep else none
    | .closing => if front = [] then some .unopened else none
    | .word text => if IsAtom text then none else some (.invalidAtom text)

/-- Nothing is wrong with any of the tokens where it stands. -/
def Faultless (tokens : List Token) : Prop :=
  ∀ front token back, tokens = front ++ token :: back → faultBehind? front token = none

section

variable {tokens : List Token} {token : Token}

private theorem excess_opening (tokens : List Token) : excess (tokens ++ [.opening]) = excess tokens + 1 := by
  simp [excess]
  omega

private theorem excess_closing (tokens : List Token) : excess (tokens ++ [.closing]) = excess tokens - 1 := by
  simp [excess]
  omega

private theorem excess_word (tokens : List Token) (text : String) :
    excess (tokens ++ [.word text]) = excess tokens := by
  simp [excess]

private theorem faultless_nil : Faultless [] := by
  intro front token back h
  exact absurd h.symm (by simp)

private theorem faultless_concat_iff :
    Faultless (tokens ++ [token]) ↔ Faultless tokens ∧ faultBehind? tokens token = none := by
  constructor
  · intro h
    refine ⟨?_, h tokens token [] rfl⟩
    rintro front t back rfl
    exact h front t (back ++ [token]) (by simp)
  · rintro ⟨faultless, no_fault⟩ front t back h
    rcases List.eq_nil_or_concat back with rfl | ⟨init, last, rfl⟩
    · obtain ⟨rfl, last⟩ := List.append_inj' h rfl
      obtain rfl := List.singleton_inj.1 last
      exact no_fault
    · have regrouped : tokens ++ [token] = (front ++ t :: init) ++ [last] := by simpa using h
      exact faultless front t init (List.append_inj' regrouped rfl).1

end

/-! ### The reader counts -/

namespace Reader

/-- The reader stands where counting says that it does behind the given tokens. -/
inductive Counted (front : List Token) : Reader → Prop
  | pending {stack : List (List SExpr)} : stack.length = excess front → stack.length ≤ 256 → (stack = [] → front = []) →
      Counted front (pending stack)
  | complete {e : SExpr} : front ≠ [] → excess front = 0 → Counted front (complete e)

variable {front : List Token} {reader next : Reader} {token : Token}

/-- A token is refused if it is at fault, and for that fault. -/
theorem fault?_step (h : reader.Counted front) (token : Token) :
    fault? (reader.step token) = faultBehind? front token := by
  cases h with
  | complete ne zero =>
    unfold faultBehind?
    rw [if_pos ⟨ne, zero⟩, step, fault?]
  | @pending stack length bound start =>
    have unfinished : ¬ (front ≠ [] ∧ excess front = 0) := by
      rintro ⟨ne, zero⟩
      exact ne (start (List.length_eq_zero_iff.1 (by omega)))
    unfold faultBehind?
    rw [if_neg unfinished]
    cases token with
    | opening =>
      dsimp only
      by_cases full : excess front = 256
      · have no_room : ¬ stack.length < maxDepth := by
          unfold maxDepth
          omega
        rw [if_pos full, step, if_neg no_room, fault?]
      · have room : stack.length < maxDepth := by
          unfold maxDepth
          omega
        rw [if_neg full, step, if_pos room, fault?]
    | closing =>
      cases stack with
      | nil => rw [start rfl, if_pos rfl, step, fault?]
      | cons items outer =>
        have begun : front ≠ [] := by
          rintro rfl
          rw [List.length_cons] at length
          have none_open : excess [] = 0 := rfl
          omega
        rw [if_neg begun, step, fault?]
    | word text =>
      dsimp only
      by_cases valid : IsAtom text
      · rw [if_pos valid, step, if_pos (accepts_atom_iff.2 valid), fault?]
      · rw [if_neg valid, step, if_neg (mt accepts_atom_iff.1 valid), fault?]

private theorem counted_attach {e : SExpr} {stack : List (List SExpr)} (ne : front ≠ [])
    (length : stack.length = excess front) (bound : stack.length ≤ 256) : (attach e stack).Counted front := by
  cases stack with
  | nil => exact .complete ne length.symm
  | cons items outer => exact .pending length bound (by simp)

theorem counted_step (h : reader.Counted front) (hnext : reader.step token = .ok next) :
    next.Counted (front ++ [token]) := by
  have ne : front ++ [token] ≠ [] := by simp
  obtain ⟨stack, rfl, taken⟩ := step_eq_ok_iff.1 hnext
  cases h with
  | pending length bound start =>
    rcases taken with ⟨rfl, room, rfl⟩ | ⟨rfl, items, outer, rfl, rfl⟩ | ⟨text, rfl, -, rfl⟩
    · refine .pending ?_ room (by simp)
      rw [excess_opening, ← length]
      rfl
    · refine counted_attach ne ?_ (Nat.le_of_succ_le bound)
      rw [excess_closing, ← length]
      simp
    · refine counted_attach ne ?_ bound
      rw [excess_word, ← length]

/-- Tokens without a fault are all taken in. -/
theorem exists_steps (h : Faultless front) :
    ∃ reader, front.foldlM step (pending []) = .ok reader ∧ reader.Counted front := by
  induction front using List.reverseRecOn with
  | nil => exact ⟨pending [], rfl, .pending rfl (Nat.zero_le 256) fun _ => rfl⟩
  | append_singleton front token ih =>
    obtain ⟨faultless, no_fault⟩ := faultless_concat_iff.1 h
    obtain ⟨reader, hreader, counted⟩ := ih faultless
    obtain ⟨next, hnext⟩ := fault?_eq_none_iff.1 ((fault?_step counted token).trans no_fault)
    refine ⟨next, ?_, counted_step counted hnext⟩
    simp only [List.foldlM_append, List.foldlM_cons, List.foldlM_nil, bind_eq_ok_iff, pure_eq_ok_iff, exists_eq_right]
    exact ⟨reader, hreader, hnext⟩

private theorem run_of_steps (h : front.foldlM step reader = .ok next) (rest : List Token) :
    reader.run (front ++ rest) = next.run rest := by
  rw [run, List.foldlM_append, h]
  rfl

/-- At the end, the count decides. -/
private theorem finish_of_counted (h : reader.Counted front) : (front = [] → reader.finish = .error .empty) ∧
    (0 < excess front → reader.finish = .error (.unclosed (excess front).toNat)) ∧
    (front ≠ [] → ¬ 0 < excess front → ∃ e, reader.finish = .ok e) := by
  cases h with
  | @complete e ne zero => exact ⟨fun nil => absurd nil ne, fun pos => absurd zero (by omega), fun _ _ => ⟨e, rfl⟩⟩
  | @pending stack length bound start =>
    cases stack with
    | nil =>
      have zero : excess front = 0 := length.symm
      exact ⟨fun _ => rfl, fun pos => absurd zero (by omega), fun ne => absurd (start rfl) ne⟩
    | cons items outer =>
      have pos : 0 < excess front := by
        rw [← length, List.length_cons]
        omega
      refine ⟨?_, fun _ => ?_, fun _ none_open => absurd pos none_open⟩
      · rintro rfl
        exact absurd pos (by decide)
      · rw [← length]
        rfl

end Reader

/-! ### Texts -/

/-- The first token that is at fault decides on a text, whatever follows it.  If there is none, the number of lists that
are open at the end decides. -/
theorem SExpr.read_leftmost (text : String) :
    (∀ front token back fault, tokensOf text = front ++ token :: back → Faultless front →
      faultBehind? front token = some fault → SExpr.read text = .error fault) ∧
    (Faultless (tokensOf text) →
      (tokensOf text = [] → SExpr.read text = .error .empty) ∧
      (0 < excess (tokensOf text) → SExpr.read text = .error (.unclosed (excess (tokensOf text)).toNat)) ∧
      (tokensOf text ≠ [] → ¬ 0 < excess (tokensOf text) → ∃ e, SExpr.read text = .ok e)) ∧
    (∀ token, (ParseFault.trailing token).message =
      "unexpected \"" ++ token.text ++ "\" after a complete S-expression") ∧
    ParseFault.tooDeep.message = "nesting too deep: more than 256 levels" ∧
    ParseFault.unopened.message = "mismatched parens, unexpected \")\"" ∧
    (∀ word, (ParseFault.invalidAtom word).message = "invalid atom \"" ++ word ++ "\"") ∧
    ParseFault.empty.message = "empty input" ∧
    ∀ count, (ParseFault.unclosed count).message =
      "mismatched parens, " ++ writeCount count ++ " list(s) never closed" := by
  refine ⟨?_, ?_, fun _ => rfl, by decide +kernel, rfl, fun _ => rfl, rfl, fun _ => rfl⟩
  · intro front token back fault htokens faultless hfault
    obtain ⟨reader, hreader, counted⟩ := Reader.exists_steps faultless
    have refused : reader.step token = .error fault :=
      fault?_eq_some_iff.1 ((Reader.fault?_step counted token).trans hfault)
    rw [SExpr.read, htokens, Reader.run_of_steps hreader, Reader.run_cons, refused]
    rfl
  · intro faultless
    obtain ⟨reader, hreader, counted⟩ := Reader.exists_steps faultless
    have ends : SExpr.read text = reader.finish := by
      have run := Reader.run_of_steps hreader []
      rwa [List.append_nil] at run
    rw [ends]
    exact Reader.finish_of_counted counted

/-- A word that is no atom, but comes behind a complete list, and a text with two lists open. -/
theorem SExpr.read_leftmost_trailing :
    (tokensOf "()é(" = [.opening, .closing] ++ .word "é" :: [.opening] ∧
      faultBehind? [.opening, .closing] (.word "é") = some (.trailing (.word "é")) ∧
      SExpr.read "()é(" = .error (.trailing (.word "é"))) ∧
    tokensOf "((" = [.opening, .opening] ∧ SExpr.read "((" = .error (.unclosed 2) := by
  have opened : Faultless [.opening] := faultless_concat_iff.2 ⟨faultless_nil, by decide⟩
  have list : Faultless [.opening, .closing] := (@faultless_concat_iff [.opening] _).2 ⟨opened, by decide⟩
  have lists : Faultless (tokensOf "((") := (@faultless_concat_iff [.opening] _).2 ⟨opened, by decide⟩
  have tokens : tokensOf "()é(" = [.opening, .closing] ++ .word "é" :: [.opening] := by decide +kernel
  have fault : faultBehind? [.opening, .closing] (.word "é") = some (.trailing (.word "é")) := by decide
  exact ⟨⟨tokens, fault, (SExpr.read_leftmost _).1 _ _ _ _ tokens list fault⟩, by decide +kernel,
    ((SExpr.read_leftmost "((").2.1 lists).2.1 (by decide +kernel)⟩

end PolyDeriv
