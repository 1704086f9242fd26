import PolyDeriv.SExpr.Basic
import PolyDeriv.Token.Class

/-!
# Tokens of printed forms

The printed form of an expression falls into the tokens of the expression (`SExpr.tokensOf_render`), provided that its
atoms are atoms: these hold no parenthesis and no separator, and in print every one of them ends at a space, unless
it is the whole text.
-/

namespace PolyDeriv

/-- The characters that can stand in a word. -/
def IsPlain (c : Char) : Prop := c ≠ '(' ∧ c ≠ ')' ∧ isSeparator c = false

theorem IsAtom.plain {text : String} (h : IsAtom text) : text.toList ≠ [] ∧ ∀ c ∈ text.toList, IsPlain c := by
  rcases h with operator | ⟨ne, word⟩
  · have cases : text = "+" ∨ text = "^" ∨ text = "*" ∨ text = "\x27" := by simpa using operator
    rcases cases with rfl | rfl | rfl | rfl <;> simp [IsPlain, isSeparator]
  · refine ⟨ne, fun c hc => ?_⟩
    have ne_of_not_word : ∀ d : Char, ¬ (d.isAlphanum ∨ d = '-') → c ≠ d := fun d hd h => hd (h ▸ word c hc)
    have not_opening := ne_of_not_word '(' (by decide)
    have not_closing := ne_of_not_word ')' (by decide)
    have not_space := ne_of_not_word ' ' (by decide)
    have not_tab := ne_of_not_word '\t' (by decide)
    have not_newline := ne_of_not_word '\n' (by decide)
    have not_return := ne_of_not_word '\r' (by decide)
    exact ⟨not_opening, not_closing, by simp [isSeparator, not_space, not_tab, not_newline, not_return]⟩

namespace Scan

theorem push_of_plain {c : Char} (h : IsPlain c) (s : Scan) : push c s = ⟨c :: s.run, s.tokens⟩ := by
  obtain ⟨not_opening, not_closing, not_separator⟩ := h
  simp [push, not_opening, not_closing, not_separator]

private theorem push_opening (s : Scan) : push '(' s = ⟨[], .opening :: s.close⟩ := rfl

private theorem push_space (s : Scan) : push ' ' s = ⟨[], s.close⟩ := rfl

theorem before_of_plain {cs : List Char} (h : ∀ c ∈ cs, IsPlain c) (ts : List Token) : before ts cs = ⟨cs, ts⟩ := by
  induction cs with
  | nil => rfl
  | cons c cs ih =>
    have tail := ih fun d hd => h d (by simp [hd])
    rw [before_cons, tail, push_of_plain (h c (by simp))]

/-- A text in front of one that leaves no run open is read on its own. -/
theorem before_append_of_nil {ts us : List Token} {as bs : List Char} (h : before ts bs = ⟨[], us⟩) :
    before ts (as ++ bs) = before us as := by
  rw [before_append, h, before]

end Scan

namespace SExpr

theorem valid_list_iff {items : List SExpr} :
    (∀ a ∈ (list items).atoms, IsAtom a) ↔ ∀ e ∈ items, ∀ a ∈ e.atoms, IsAtom a := by
  rw [atoms, atomsOfItems_eq]
  simp only [List.mem_flatMap]
  constructor
  · intro h e he a ha
    exact h a ⟨e, he, ha⟩
  · rintro h a ⟨e, he, ha⟩
    exact h e he a ha

private theorem close_before_renderItems {items : List SExpr}
    (h : ∀ e ∈ items, ∀ ts, (Scan.before ts e.render.toList).close = e.tokens ++ ts) (ts : List Token) :
    (Scan.before ts (renderItems items).toList).close = tokensOfItems items ++ ts := by
  induction items with
  | nil => rfl
  | cons e es ih =>
    have head := h e (by simp) (tokensOfItems es ++ ts)
    have tail := ih fun f hf => h f (by simp [hf])
    -- the space behind an item ends it, so that it does not run into the next one
    have spaced : Scan.before ts (' ' :: (renderItems es).toList) = ⟨[], tokensOfItems es ++ ts⟩ := by
      rw [Scan.before_cons, Scan.push_space, tail]
    have split : (renderItems (e :: es)).toList = e.render.toList ++ ' ' :: (renderItems es).toList := by
      simp [renderItems]
    rw [split, Scan.before_append_of_nil spaced, head, tokensOfItems, List.append_assoc]

private theorem close_before_render {e : SExpr} (h : ∀ a ∈ e.atoms, IsAtom a) (ts : List Token) :
    (Scan.before ts e.render.toList).close = e.tokens ++ ts := by
  induction e generalizing ts with
  | atom text =>
    obtain ⟨ne, plain⟩ := (h text (by simp [atoms])).plain
    rw [render, Scan.before_of_plain plain, tokens]
    simp [Scan.close, ne]
  | list items ih =>
    have valid := valid_list_iff.1 h
    have inner := close_before_renderItems (fun e he => ih e he (valid e he)) (.closing :: ts)
    have closed : Scan.before ts [')'] = ⟨[], .closing :: ts⟩ := rfl
    have split : (render (.list items)).toList = '(' :: ' ' :: ((renderItems items).toList ++ [')']) := by
      simp [render]
    rw [split, Scan.before_cons, Scan.before_cons, Scan.before_append_of_nil closed, Scan.push_space, inner,
      Scan.push_opening, tokens]
    simp [Scan.close]

theorem tokensOf_render {e : SExpr} (h : ∀ a ∈ e.atoms, IsAtom a) : tokensOf e.render = e.tokens := by
  rw [tokensOf, close_before_render h, List.append_nil]

end SExpr
end PolyDeriv
