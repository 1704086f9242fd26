import PolyDeriv.Proofs.Rendering
import PolyDeriv.Proofs.Success
import PolyDeriv.SExpr.Reader

/-!
# Reading S-expressions

The reader accepts a text exactly if its tokens are those of an expression made of atoms and nested at most `maxDepth`
deep, and then it returns that expression (`SExpr.read_eq_ok_iff`).

* What the reader holds consists of the tokens it has gone through, and every list that is open could be closed where
  it stands; no token changes that (`Reader.tokens_readable_step`).
* The tokens of an expression, wherever they stand, add the expression to what the reader holds (`Reader.run_tokens`),
  unless it is too deep there (`Reader.run_tokens_tooDeep`).
-/

namespace PolyDeriv

/-! ### Expressions that can be read -/

namespace SExpr

/-- An expression of atoms, with lists nested at most `n` deep. -/
structure Readable (n : Nat) (e : SExpr) : Prop where
  valid : ∀ a ∈ e.atoms, IsAtom a
  shallow : e.depth ≤ n

private theorem tokens_list_append (items : List SExpr) (rest : List Token) :
    (list items).tokens ++ rest = .opening :: (tokensOfItems items ++ .closing :: rest) := by
  simp [tokens]

private theorem depth_list_le_iff {items : List SExpr} {n : Nat} :
    (list items).depth ≤ n ↔ 0 < n ∧ ∀ e ∈ items, e.depth ≤ n - 1 := by
  rw [depth, ← depthOfItems_le_iff]
  omega

private theorem readable_atom_iff {n : Nat} {text : String} : (atom text).Readable n ↔ IsAtom text := by
  constructor
  · intro h
    exact h.valid text (by simp [atoms])
  · intro h
    exact ⟨by simpa [atoms] using h, Nat.zero_le n⟩

private theorem readable_list_iff {n : Nat} {items : List SExpr} :
    (list items).Readable n ↔ 0 < n ∧ ∀ e ∈ items, e.Readable (n - 1) := by
  constructor
  · intro h
    have valid := valid_list_iff.1 h.valid
    obtain ⟨room, shallow⟩ := depth_list_le_iff.1 h.shallow
    exact ⟨room, fun e he => ⟨valid e he, shallow e he⟩⟩
  · rintro ⟨room, h⟩
    exact ⟨valid_list_iff.2 fun e he => (h e he).valid, depth_list_le_iff.2 ⟨room, fun e he => (h e he).shallow⟩⟩

end SExpr

/-! ### What one token does -/

namespace Reader

/-- What a token that fits does: it opens a list, closes one, or is an atom. -/
theorem step_eq_ok_iff {reader next : Reader} {token : Token} : reader.step token = .ok next ↔
    ∃ stack, reader = pending stack ∧
      ((token = .opening ∧ stack.length < maxDepth ∧ next = pending ([] :: stack)) ∨
        (token = .closing ∧ ∃ items outer, stack = items :: outer ∧ next = attach (.list items.reverse) outer) ∨
        ∃ text, token = .word text ∧ IsAtom text ∧ next = attach (.atom text) stack) := by
  simp only [← accepts_atom_iff]
  cases reader with
  | complete e => simp [step]
  | pending stack =>
    cases token with
    | opening => by_cases h : stack.length < maxDepth <;> simp [step, h, eq_comm (a := next)]
    | closing => cases stack <;> simp [step, eq_comm (a := next)]
    | word text => by_cases h : TokenClass.atom.accepts text <;> simp [step, h, eq_comm (a := next)]

theorem finish_eq_ok_iff {reader : Reader} {e : SExpr} : reader.finish = .ok e ↔ reader = complete e := by
  cases reader with
  | complete f => simp [finish]
  | pending stack => cases stack <;> simp [finish]

theorem run_eq_ok_iff {reader : Reader} {tokens : List Token} {e : SExpr} :
    reader.run tokens = .ok e ↔ tokens.foldlM step reader = .ok (complete e) := by
  rw [run, bind_eq_ok_iff]
  simp only [finish_eq_ok_iff, exists_eq_right]

private theorem run_of_step {reader next : Reader} {token : Token} (h : reader.step token = .ok next)
    (tokens : List Token) : reader.run (token :: tokens) = next.run tokens := by
  rw [run_cons, h]
  rfl

/-! ### What has been read -/

/-- The tokens that the open lists were read from. -/
def tokensOfStack : List (List SExpr) → List Token
  | [] => []
  | items :: outer => tokensOfStack outer ++ .opening :: SExpr.tokensOfItems items.reverse

/-- The tokens that have been read. -/
def tokens : Reader → List Token
  | pending stack => tokensOfStack stack
  | complete e => e.tokens

/-- Every open list could be closed where it stands. -/
def StackReadable : List (List SExpr) → Prop
  | [] => True
  | items :: outer => (SExpr.list items.reverse).Readable (maxDepth - outer.length) ∧ StackReadable outer

/-- What has been read is allowed where it stands. -/
def Readable : Reader → Prop
  | pending stack => StackReadable stack
  | complete e => e.Readable maxDepth

private theorem tokens_attach (e : SExpr) (stack : List (List SExpr)) :
    (attach e stack).tokens = tokensOfStack stack ++ e.tokens := by
  cases stack with
  | nil => rfl
  | cons items outer => simp [attach, tokens, tokensOfStack, SExpr.tokensOfItems_eq]

private theorem readable_attach {e : SExpr} {stack : List (List SExpr)} (he : e.Readable (maxDepth - stack.length))
    (h : StackReadable stack) : (attach e stack).Readable := by
  cases stack with
  | nil => exact he
  | cons items outer =>
    obtain ⟨innermost, rest⟩ := h
    obtain ⟨room, readable⟩ := SExpr.readable_list_iff.1 innermost
    have grown : ∀ f ∈ (e :: items).reverse, f.Readable (maxDepth - outer.length - 1) := by
      intro f hf
      rw [List.mem_reverse, List.mem_cons] at hf
      rcases hf with rfl | hf
      · rwa [Nat.sub_sub]
      · exact readable f (List.mem_reverse.2 hf)
    exact ⟨SExpr.readable_list_iff.2 ⟨room, grown⟩, rest⟩

theorem tokens_readable_step {reader next : Reader} {token : Token} (h : reader.step token = .ok next)
    (readable : reader.Readable) : next.tokens = reader.tokens ++ [token] ∧ next.Readable := by
  obtain ⟨stack, rfl, ⟨rfl, room, rfl⟩ | ⟨rfl, items, outer, rfl, rfl⟩ | ⟨text, rfl, valid, rfl⟩⟩ :=
    step_eq_ok_iff.1 h
  · have opened : (SExpr.list []).Readable (maxDepth - stack.length) :=
      SExpr.readable_list_iff.2 ⟨Nat.sub_pos_of_lt room, by simp⟩
    exact ⟨rfl, opened, readable⟩
  · obtain ⟨innermost, rest⟩ := readable
    refine ⟨?_, readable_attach innermost rest⟩
    rw [tokens_attach]
    simp [tokens, tokensOfStack, SExpr.tokens]
  · exact ⟨tokens_attach _ _, readable_attach (SExpr.readable_atom_iff.2 valid) readable⟩

private theorem tokens_readable_steps {ts : List Token} {last : Reader} (h : ts.foldlM step (pending []) = .ok last) :
    last.tokens = ts ∧ last.Readable := by
  refine foldlM_induction (motive := fun done reader => reader.tokens = done ∧ reader.Readable) h ?_ ?_
  · exact ⟨rfl, trivial⟩
  · rintro done token reader next ⟨rfl, readable⟩ hnext
    exact tokens_readable_step hnext readable

/-! ### Reading the tokens of an expression -/

/-- Reading the items of the innermost list one by one, if each of them can be read. -/
theorem run_tokensOfItems {items : List SExpr} {stack : List (List SExpr)}
    (h : ∀ e ∈ items, ∀ read rest,
      (pending (read :: stack)).run (e.tokens ++ rest) = (pending ((e :: read) :: stack)).run rest)
    (read : List SExpr) (rest : List Token) :
    (pending (read :: stack)).run (SExpr.tokensOfItems items ++ rest) =
      (pending ((items.reverse ++ read) :: stack)).run rest := by
  induction items generalizing read with
  | nil => rfl
  | cons e es ih =>
    have head := h e (by simp) read (SExpr.tokensOfItems es ++ rest)
    have tail := ih (fun f hf => h f (by simp [hf])) (e :: read)
    rw [SExpr.tokensOfItems, List.append_assoc, head, tail, List.reverse_cons, List.append_assoc]
    rfl

private theorem step_opening {stack : List (List SExpr)} (room : stack.length < maxDepth) :
    (pending stack).step .opening = .ok (pending ([] :: stack)) := if_pos room

theorem run_tokens {e : SExpr} {stack : List (List SExpr)} (h : e.Readable (maxDepth - stack.length))
    (rest : List Token) : (pending stack).run (e.tokens ++ rest) = (attach e stack).run rest := by
  induction e generalizing stack rest with
  | atom text =>
    have accepted : (pending stack).step (.word text) = .ok (attach (.atom text) stack) :=
      step_eq_ok_iff.2 ⟨stack, rfl, .inr (.inr ⟨text, rfl, SExpr.readable_atom_iff.1 h, rfl⟩)⟩
    exact run_of_step accepted rest
  | list items ih =>
    obtain ⟨room, readable⟩ := SExpr.readable_list_iff.1 h
    -- the items stand inside one more list, and may be one level less deep
    have inner : ∀ e ∈ items, ∀ read rest,
        (pending (read :: stack)).run (e.tokens ++ rest) = (pending ((e :: read) :: stack)).run rest :=
      fun e he read rest => @ih e he (read :: stack) (readable e he) rest
    have closed : (pending (items.reverse :: stack)).step .closing = .ok (attach (.list items) stack) := by
      rw [step, List.reverse_reverse]
    rw [SExpr.tokens_list_append, run_of_step (step_opening (Nat.lt_of_sub_pos room)), run_tokensOfItems inner,
      List.append_nil, run_of_step closed]

/-- Reading the items of the innermost list fails at the first one that is too deep. -/
theorem run_tokensOfItems_tooDeep {items : List SExpr} {stack : List (List SExpr)} {n : Nat}
    (hn : maxDepth - (stack.length + 1) = n) (valid : ∀ e ∈ items, ∀ a ∈ e.atoms, IsAtom a)
    (h : ∀ e ∈ items, n < e.depth → ∀ read rest,
      (pending (read :: stack)).run (e.tokens ++ rest) = .error .tooDeep)
    (deep : ∃ e ∈ items, n < e.depth) (read : List SExpr) (rest : List Token) :
    (pending (read :: stack)).run (SExpr.tokensOfItems items ++ rest) = .error .tooDeep := by
  induction items generalizing read with
  | nil => simp at deep
  | cons e es ih =>
    rw [SExpr.tokensOfItems, List.append_assoc]
    by_cases he : n < e.depth
    · exact h e (by simp) he read _
    · have readable : e.Readable (maxDepth - (read :: stack).length) :=
        ⟨valid e (by simp), by rw [List.length_cons, hn]; exact Nat.le_of_not_lt he⟩
      have deep_rest : ∃ f ∈ es, n < f.depth := by
        obtain ⟨f, hf, hdeep⟩ := deep
        rcases List.mem_cons.1 hf with rfl | hf
        · exact absurd hdeep he
        · exact ⟨f, hf, hdeep⟩
      rw [run_tokens readable]
      exact ih (fun f hf => valid f (by simp [hf])) (fun f hf => h f (by simp [hf])) deep_rest (e :: read)

theorem run_tokens_tooDeep {e : SExpr} {stack : List (List SExpr)} (valid : ∀ a ∈ e.atoms, IsAtom a)
    (room : stack.length ≤ maxDepth) (deep : maxDepth - stack.length < e.depth) (rest : List Token) :
    (pending stack).run (e.tokens ++ rest) = .error .tooDeep := by
  induction e generalizing stack rest with
  | atom text => exact absurd deep (Nat.not_lt_zero _)
  | list items ih =>
    rw [SExpr.tokens_list_append]
    by_cases h : stack.length < maxDepth
    · have items_valid := SExpr.valid_list_iff.1 valid
      have deep_item : ∃ e ∈ items, maxDepth - stack.length - 1 < e.depth := by
        by_contra none_deep
        have shallow : ∀ e ∈ items, e.depth ≤ maxDepth - stack.length - 1 := by simpa using none_deep
        exact Nat.not_le_of_lt deep (SExpr.depth_list_le_iff.2 ⟨Nat.sub_pos_of_lt h, shallow⟩)
      rw [run_of_step (step_opening h)]
      refine run_tokensOfItems_tooDeep (Nat.sub_sub _ _ _).symm items_valid ?_ deep_item [] _
      intro e he hdeep read rest
      exact @ih e he (read :: stack) (items_valid e he) h hdeep rest
    · have refused : (pending stack).step .opening = .error .tooDeep := if_neg h
      rw [run_cons, refused]
      rfl

end Reader

/-! ### Reading texts -/

namespace SExpr

/-- A text is read as an expression if it consists of the tokens of the expression and that is readable. -/
theorem read_eq_ok_iff {text : String} {e : SExpr} :
    SExpr.read text = .ok e ↔ tokensOf text = e.tokens ∧ e.Readable maxDepth := by
  constructor
  · intro h
    obtain ⟨tokens, readable⟩ := Reader.tokens_readable_steps (Reader.run_eq_ok_iff.1 h)
    exact ⟨tokens.symm, readable⟩
  · rintro ⟨tokens, readable⟩
    have run : (Reader.pending []).run (e.tokens ++ []) = .ok e := @Reader.run_tokens e [] readable []
    rw [List.append_nil] at run
    rw [SExpr.read, tokens, run]

theorem read_render_tooDeep {e : SExpr} (valid : ∀ a ∈ e.atoms, IsAtom a) (deep : maxDepth < e.depth) :
    SExpr.read e.render = .error .tooDeep := by
  have run : (Reader.pending []).run (e.tokens ++ []) = .error .tooDeep :=
    @Reader.run_tokens_tooDeep e [] valid (Nat.zero_le _) deep []
  rw [List.append_nil] at run
  rw [SExpr.read, tokensOf_render valid, run]

/-- A text represents an expression: it falls into the tokens of the expression, which is made of atoms and nested at
most 256 deep. -/
structure Represents (text : String) (e : SExpr) : Prop where
  tokens : tokensOf text = e.tokens
  readable : e.Readable 256

theorem represents_iff {text : String} {e : SExpr} : Represents text e ↔ SExpr.read text = .ok e := by
  rw [read_eq_ok_iff]
  exact ⟨fun h => ⟨h.tokens, h.readable⟩, fun h => ⟨h.1, h.2⟩⟩

/-- A text is read as the expression it represents.  It represents one at most, and if it represents none it is at
fault. -/
theorem read_of_represents (text : String) :
    (∀ e, SExpr.read text = .ok e ↔ Represents text e) ∧
      (∀ e f, Represents text e → Represents text f → e = f) ∧
      ((∃ fault, SExpr.read text = .error fault) ↔ ∀ e, ¬ Represents text e) := by
  refine ⟨fun e => represents_iff.symm, fun e f he hf => ?_, ?_⟩
  · have same := (represents_iff.1 he).symm.trans (represents_iff.1 hf)
    exact Except.ok.inj same
  · simp only [represents_iff]
    cases SExpr.read text with
    | error fault => simp
    | ok e => simp

/-- Forms may be packed together, and lists may be empty. -/
example : SExpr.read "(+(^ x\t1)()('))" = .ok (.list [.atom "+", .list [.atom "^", .atom "x", .atom "1"], .list [],
    .list [.atom "'"]]) := by decide +kernel

end SExpr
end PolyDeriv
