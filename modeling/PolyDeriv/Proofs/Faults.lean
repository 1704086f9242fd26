import PolyDeriv.Proofs.Reading

/-!
# Faults of the reader

A text that cannot be read has a fault of its tokens (`SExpr.fault_of_read`): the token that is in the way is one of
them, and only a text without tokens is empty.

* The words of a text are made of its characters (`mem_of_word`), and a text without tokens has only separators
  (`tokensOf_eq_nil_iff`).
* Every step of the reader that fails does so by its token, and once a token has been read the text is not empty any more
  (`Reader.fault_of_run`).
-/

namespace PolyDeriv

/-! ### Words of a text -/

namespace Scan

/-- The words that have been read are made of characters of a text, and so is the run that is open. -/
structure MadeOf (cs : List Char) (s : Scan) : Prop where
  run : ∀ c ∈ s.run, c ∈ cs ∧ IsPlain c
  words : ∀ w, .word w ∈ s.tokens → ∀ c ∈ w.toList, c ∈ cs ∧ IsPlain c

variable {cs : List Char} {s : Scan}

/-- A word is complete already, or it is the run that is open. -/
theorem word_mem_close {w : String} (h : .word w ∈ s.close) : .word w ∈ s.tokens ∨ w.toList = s.run ∧ s.run ≠ [] := by
  unfold close at h
  split at h
  · exact .inl h
  · next nonempty =>
    rcases List.mem_cons.1 h with hw | hw
    · obtain rfl := Token.word.inj hw
      rw [String.toList_ofList]
      exact .inr ⟨rfl, by simpa using nonempty⟩
    · exact .inl hw

theorem MadeOf.close (h : s.MadeOf cs) : ∀ w, .word w ∈ s.close → ∀ c ∈ w.toList, c ∈ cs ∧ IsPlain c := by
  intro w hw
  rcases word_mem_close hw with hw | ⟨run, -⟩
  · exact h.words w hw
  · rw [run]
    exact h.run

theorem isPlain_of_push {c : Char} (opening : c ≠ '(') (closing : c ≠ ')') (separator : ¬ isSeparator c) :
    IsPlain c := ⟨opening, closing, by simpa using separator⟩

theorem MadeOf.push (h : s.MadeOf cs) (c : Char) : (push c s).MadeOf (c :: cs) := by
  have later : ∀ d, d ∈ cs ∧ IsPlain d → d ∈ c :: cs ∧ IsPlain d := fun d hd => ⟨List.mem_cons_of_mem c hd.1, hd.2⟩
  have words_of_close : ∀ w, .word w ∈ s.close → ∀ d ∈ w.toList, d ∈ c :: cs ∧ IsPlain d :=
    fun w hw d hd => later d (h.close w hw d hd)
  unfold Scan.push
  split
  · exact ⟨by simp, by simpa using words_of_close⟩
  · next opening =>
    split
    · exact ⟨by simp, by simpa using words_of_close⟩
    · next closing =>
      split
      · exact ⟨by simp, words_of_close⟩
      · next separator =>
        refine ⟨?_, fun w hw d hd => later d (h.words w hw d hd)⟩
        rw [List.forall_mem_cons]
        exact ⟨⟨List.mem_cons_self, isPlain_of_push opening closing separator⟩, fun d hd => later d (h.run d hd)⟩

private theorem madeOf_before (cs : List Char) : (before [] cs).MadeOf cs := by
  induction cs with
  | nil => exact ⟨by simp, by simp⟩
  | cons c cs ih => exact ih.push c

theorem close_push_eq_nil_iff {c : Char} : (push c s).close = [] ↔ isSeparator c ∧ s.close = [] := by
  unfold Scan.push
  split
  · next opening => simp [Scan.close, opening, isSeparator]
  · split
    · next closing => simp [Scan.close, closing, isSeparator]
    · split
      · next separator => simp [Scan.close, separator]
      · next separator => simp [Scan.close, separator]

end Scan

/-- The words of a text are made of its characters, none of which is a parenthesis or a separator. -/
theorem mem_of_word {text w : String} (h : .word w ∈ tokensOf text) : ∀ c ∈ w.toList, c ∈ text.toList ∧ IsPlain c :=
  (Scan.madeOf_before text.toList).close w h

/-- Only separators are no tokens. -/
theorem tokensOf_eq_nil_iff {text : String} : tokensOf text = [] ↔ ∀ c ∈ text.toList, isSeparator c := by
  unfold tokensOf
  induction text.toList with
  | nil => simp [Scan.close]
  | cons c cs ih => rw [Scan.before_cons, Scan.close_push_eq_nil_iff, ih, List.forall_mem_cons]

/-! ### Faults of the reader -/

/-- A fault that reading tokens can lead to.  What it quotes is among the tokens. -/
inductive FaultOf (tokens : List Token) : ParseFault → Prop
  | trailing {token : Token} : token ∈ tokens → FaultOf tokens (.trailing token)
  | tooDeep : FaultOf tokens .tooDeep
  | unopened : FaultOf tokens .unopened
  | invalidAtom {text : String} : .word text ∈ tokens → FaultOf tokens (.invalidAtom text)
  | unclosed (count : Nat) : FaultOf tokens (.unclosed count)
  | empty : tokens = [] → FaultOf tokens .empty

theorem FaultOf.cons {tokens : List Token} {fault : ParseFault} (h : FaultOf tokens fault)
    (nonempty : fault ≠ .empty) (token : Token) : FaultOf (token :: tokens) fault := by
  cases h with
  | trailing hmem => exact .trailing (List.mem_cons_of_mem _ hmem)
  | tooDeep => exact .tooDeep
  | unopened => exact .unopened
  | invalidAtom hmem => exact .invalidAtom (List.mem_cons_of_mem _ hmem)
  | unclosed count => exact .unclosed count
  | empty => exact absurd rfl nonempty

namespace Reader

variable {reader next : Reader} {token : Token} {tokens : List Token} {fault : ParseFault}

private theorem fault_of_step (h : reader.step token = .error fault) (tokens : List Token) :
    FaultOf (token :: tokens) fault := by
  unfold step at h
  split at h
  · obtain rfl := Except.error.inj h
    exact .trailing List.mem_cons_self
  · split at h
    · exact absurd h (by simp)
    · obtain rfl := Except.error.inj h
      exact .tooDeep
  · obtain rfl := Except.error.inj h
    exact .unopened
  · exact absurd h (by simp)
  · split at h
    · exact absurd h (by simp)
    · obtain rfl := Except.error.inj h
      exact .invalidAtom List.mem_cons_self

private theorem attach_ne_pending_nil (e : SExpr) (stack : List (List SExpr)) : attach e stack ≠ pending [] := by
  cases stack <;> simp [attach]

private theorem step_ne_pending_nil (h : reader.step token = .ok next) : next ≠ pending [] := by
  obtain ⟨stack, -, ⟨-, -, rfl⟩ | ⟨-, items, outer, -, rfl⟩ | ⟨text, -, -, rfl⟩⟩ := step_eq_ok_iff.1 h
  · simp
  · exact attach_ne_pending_nil _ _
  · exact attach_ne_pending_nil _ _

private theorem fault_of_finish (h : reader.finish = .error fault) : (reader = pending [] ∧ fault = .empty) ∨
    ∃ count, fault = .unclosed count := by
  cases reader with
  | complete e => exact absurd h (by simp [finish])
  | pending stack =>
    cases stack with
    | nil => exact .inl ⟨rfl, (Except.error.inj h).symm⟩
    | cons items outer => exact .inr ⟨_, (Except.error.inj h).symm⟩

/-- Reading fails with a fault of the tokens, and it finds no tokens only if there are none from the start. -/
theorem fault_of_run (h : reader.run tokens = .error fault) :
    FaultOf tokens fault ∧ (fault = .empty → reader = pending []) := by
  induction tokens generalizing reader with
  | nil =>
    rcases fault_of_finish h with ⟨hreader, rfl⟩ | ⟨count, rfl⟩
    · exact ⟨.empty rfl, fun _ => hreader⟩
    · exact ⟨.unclosed count, by simp⟩
  | cons token tokens ih =>
    rw [run_cons] at h
    rcases bind_eq_error_iff.1 h with hstep | ⟨next, hstep, h⟩
    · have fault_of_token := fault_of_step hstep tokens
      refine ⟨fault_of_token, ?_⟩
      rintro rfl
      cases fault_of_token with
      | empty none => exact absurd none (by simp)
    · obtain ⟨fault_of_rest, start⟩ := ih h
      have nonempty : fault ≠ .empty := fun hempty => step_ne_pending_nil hstep (start hempty)
      exact ⟨fault_of_rest.cons nonempty token, fun hempty => absurd hempty nonempty⟩

end Reader

/-- A text that cannot be read has a fault of its tokens. -/
theorem SExpr.fault_of_read {text : String} {fault : ParseFault} (h : SExpr.read text = .error fault) :
    FaultOf (tokensOf text) fault :=
  (Reader.fault_of_run h).1

end PolyDeriv
