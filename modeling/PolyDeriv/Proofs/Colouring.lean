import PolyDeriv.Colour
import PolyDeriv.Proofs.Reading
import PolyDeriv.Proofs.Success

/-!
# Painted texts

A text can be painted exactly if its parentheses match (`exists_paint_iff`), and those of a printed expression do
(`SExpr.openBehind_render`).  What comes out is the text with every parenthesis in a colour (`coloured_of_paint`).

Painting loses nothing.  The text can be told from what it is painted as (`Coloured.unique`), and therefore from what is
shown, although a text that cannot be painted is shown as it is (`display_injective`).  If the text holds no escape
character, then it is what is left when all escape sequences are deleted (`Coloured.withoutEscapes_eq`).
-/

namespace PolyDeriv

/-! ### Counting parentheses -/

/-- An opening or a closing parenthesis. -/
def IsParen (c : Char) : Prop := c = '(' ∨ c = ')'

instance : DecidablePred IsParen := fun _ => inferInstanceAs (Decidable (_ ∨ _))

/-- How many pairs are open behind characters that start inside `depth` pairs.  There is no answer if a parenthesis
closes nothing. -/
def openBehind : (depth : Nat) → List Char → Option Nat
  | depth, [] => some depth
  | depth, c :: cs =>
    if c = '(' then openBehind (depth + 1) cs
    else if c = ')' then
      match depth with
      | 0 => none
      | outer + 1 => openBehind outer cs
    else openBehind depth cs

section

variable {c : Char} {depth : Nat}

@[simp] theorem openBehind_nil (depth : Nat) : openBehind depth [] = some depth := by
  rw [openBehind]

@[simp] theorem openBehind_opening (depth : Nat) (cs : List Char) :
    openBehind depth ('(' :: cs) = openBehind (depth + 1) cs := by
  rw [openBehind.eq_def]
  rfl

@[simp] theorem openBehind_closing (depth : Nat) (cs : List Char) :
    openBehind (depth + 1) (')' :: cs) = openBehind depth cs := by
  rw [openBehind, if_neg (by decide), if_pos rfl]

@[simp] theorem openBehind_unopened (cs : List Char) : openBehind 0 (')' :: cs) = none := by
  rw [openBehind, if_neg (by decide), if_pos rfl]

theorem openBehind_other (hc : ¬ IsParen c) (depth : Nat) (cs : List Char) :
    openBehind depth (c :: cs) = openBehind depth cs := by
  obtain ⟨opening, closing⟩ := not_or.1 hc
  rw [openBehind.eq_def]
  simp only [if_neg opening, if_neg closing]

private theorem openBehind_append (depth : Nat) (as bs : List Char) :
    openBehind depth (as ++ bs) = (openBehind depth as).bind fun behind => openBehind behind bs := by
  induction as generalizing depth with
  | nil => simp
  | cons c as ih =>
    rw [List.cons_append]
    by_cases hc : IsParen c
    · rcases hc with rfl | rfl
      · rw [openBehind_opening, openBehind_opening, ih]
      · cases depth with
        | zero => simp
        | succ depth => rw [openBehind_closing, openBehind_closing, ih]
    · rw [openBehind_other hc, openBehind_other hc, ih]

private theorem openBehind_of_not_isParen {cs : List Char} (h : ∀ c ∈ cs, ¬ IsParen c) (depth : Nat) :
    openBehind depth cs = some depth := by
  induction cs with
  | nil => exact openBehind_nil depth
  | cons c cs ih =>
    obtain ⟨hc, rest⟩ := List.forall_mem_cons.1 h
    rw [openBehind_other hc, ih rest]

end

namespace SExpr

private theorem openBehind_renderItems {items : List SExpr}
    (h : ∀ e ∈ items, ∀ depth, openBehind depth e.render.toList = some depth) (depth : Nat) :
    openBehind depth (renderItems items).toList = some depth := by
  rw [toList_renderItems]
  induction items with
  | nil => exact openBehind_nil depth
  | cons e es ih =>
    obtain ⟨head, tail⟩ := List.forall_mem_cons.1 h
    have space : openBehind depth [' '] = some depth := by rw [openBehind_other (by decide), openBehind_nil]
    rw [List.flatMap_cons, openBehind_append, openBehind_append, head, Option.bind_some, space, Option.bind_some, ih tail]

/-- The parentheses of a printed expression match, if no atom contributes any. -/
theorem openBehind_render {e : SExpr} (h : ∀ a ∈ e.atoms, ∀ c ∈ a.toList, ¬ IsParen c) (depth : Nat) :
    openBehind depth e.render.toList = some depth := by
  induction e generalizing depth with
  | atom text => exact openBehind_of_not_isParen (h text (List.mem_singleton_self text)) depth
  | list items ih =>
    have atoms_of_items : ∀ e ∈ items, ∀ a ∈ e.atoms, a ∈ (list items).atoms := by
      intro e he a ha
      rw [atoms, atomsOfItems_eq]
      exact List.mem_flatMap.2 ⟨e, he, ha⟩
    have items_match : ∀ e ∈ items, ∀ depth, openBehind depth e.render.toList = some depth :=
      fun e he => ih e he fun a ha => h a (atoms_of_items e he a ha)
    have split : (render (.list items)).toList = '(' :: ' ' :: ((renderItems items).toList ++ [')']) := by
      simp [render]
    rw [split, openBehind_opening, openBehind_other (by decide), openBehind_append, openBehind_renderItems items_match,
      Option.bind_some, openBehind_closing, openBehind_nil]

end SExpr

/-! ### Painting -/

section

variable {colourOf : Nat → UInt8} {depth : Nat}

theorem paintFrom_opening (depth : Nat) (cs : List Char) : paintFrom colourOf depth ('(' :: cs) =
    (paintFrom colourOf (depth + 1) cs).map (painted (colourOf (depth + 1)) '(' ++ ·) := by
  rw [paintFrom.eq_def]
  cases depth <;> rfl

theorem paintFrom_closing (depth : Nat) (cs : List Char) : paintFrom colourOf (depth + 1) (')' :: cs) =
    (paintFrom colourOf depth cs).map (painted (colourOf (depth + 1)) ')' ++ ·) := by
  rw [paintFrom.eq_def]
  rfl

private theorem paintFrom_unopened (cs : List Char) : paintFrom colourOf 0 (')' :: cs) = none := by
  rw [paintFrom.eq_def]
  rfl

theorem paintFrom_other {c : Char} (hc : ¬ IsParen c) (depth : Nat) (cs : List Char) :
    paintFrom colourOf depth (c :: cs) = (paintFrom colourOf depth cs).map (c :: ·) := by
  obtain ⟨opening, closing⟩ := not_or.1 hc
  rw [paintFrom.eq_def]
  cases depth <;> simp [opening, closing]

/-- Characters can be painted if they close what is open in front of them, and nothing else. -/
theorem exists_paintFrom_iff {cs : List Char} :
    (∃ ds, paintFrom colourOf depth cs = some ds) ↔ openBehind depth cs = some 0 := by
  induction cs generalizing depth with
  | nil => cases depth <;> simp [paintFrom]
  | cons c cs ih =>
    have mapped : ∀ (next : Nat) (f : List Char → List Char),
        (∃ ds, (paintFrom colourOf next cs).map f = some ds) ↔ openBehind next cs = some 0 := by
      intro next f
      rw [← ih]
      cases paintFrom colourOf next cs <;> simp
    by_cases hc : IsParen c
    · rcases hc with rfl | rfl
      · rw [paintFrom_opening, openBehind_opening, mapped]
      · cases depth with
        | zero => simp [paintFrom_unopened]
        | succ depth => rw [paintFrom_closing, openBehind_closing, mapped]
    · rw [paintFrom_other hc, openBehind_other hc, mapped]

end

/-- Characters are those of a text, with every parenthesis in a colour of the palette. -/
inductive Coloured (palette : List UInt8) : List Char → List Char → Prop
  | nil : Coloured palette [] []
  | paren {c : Char} {colour : UInt8} {cs ds : List Char} : IsParen c → colour ∈ palette → Coloured palette cs ds →
      Coloured palette (c :: cs) (painted colour c ++ ds)
  | other {c : Char} {cs ds : List Char} : ¬ IsParen c → Coloured palette cs ds → Coloured palette (c :: cs) (c :: ds)

section

variable {palette : List UInt8} {text out : String}

private theorem coloured_of_paintFrom {colourOf : Nat → UInt8} (h : ∀ depth, colourOf depth ∈ palette) {depth : Nat}
    {cs ds : List Char} (hds : paintFrom colourOf depth cs = some ds) : Coloured palette cs ds := by
  induction cs generalizing depth ds with
  | nil =>
    cases depth with
    | zero =>
      obtain rfl := Option.some.inj hds
      exact .nil
    | succ depth => exact absurd hds (by simp [paintFrom])
  | cons c cs ih =>
    by_cases hc : IsParen c
    · rcases hc with rfl | rfl
      · rw [paintFrom_opening, Option.map_eq_some_iff] at hds
        obtain ⟨rest, hrest, rfl⟩ := hds
        exact .paren (.inl rfl) (h _) (ih hrest)
      · cases depth with
        | zero => exact absurd hds (by simp [paintFrom_unopened])
        | succ depth =>
          rw [paintFrom_closing, Option.map_eq_some_iff] at hds
          obtain ⟨rest, hrest, rfl⟩ := hds
          exact .paren (.inr rfl) (h _) (ih hrest)
    · rw [paintFrom_other hc, Option.map_eq_some_iff] at hds
      obtain ⟨rest, hrest, rfl⟩ := hds
      exact .other hc (ih hrest)

theorem paint_eq_ok_iff (ne : palette.length ≠ 0) : paint palette text = .ok out ↔
    paintFrom (colourAt palette ne) 0 text.toList = some out.toList := by
  rw [paint, dif_neg ne]
  cases paintFrom (colourAt palette ne) 0 text.toList with
  | none => simp
  | some cs => simp [← String.toList_inj]

/-- A text can be painted exactly if its parentheses match. -/
theorem exists_paint_iff (ne : palette.length ≠ 0) :
    (∃ out, paint palette text = .ok out) ↔ openBehind 0 text.toList = some 0 := by
  have characters : (∃ ds, paintFrom (colourAt palette ne) 0 text.toList = some ds) ↔ openBehind 0 text.toList = some 0 :=
    exists_paintFrom_iff
  rw [← characters]
  simp only [paint_eq_ok_iff ne]
  constructor
  · rintro ⟨out, h⟩
    exact ⟨_, h⟩
  · rintro ⟨cs, h⟩
    exact ⟨String.ofList cs, by rw [h, String.toList_ofList]⟩

private theorem length_ne_zero_of_paint (h : paint palette text = .ok out) : palette.length ≠ 0 := by
  intro hempty
  rw [paint, dif_pos hempty] at h
  exact absurd h (by simp)

theorem coloured_of_paint (h : paint palette text = .ok out) : Coloured palette text.toList out.toList := by
  have ne := length_ne_zero_of_paint h
  have in_palette : ∀ depth, colourAt palette ne depth ∈ palette := fun depth => List.get_mem _ _
  exact coloured_of_paintFrom in_palette ((paint_eq_ok_iff ne).1 h)

theorem display_of_paint (h : paint defaultPalette text = .ok out) : display true text = out := by
  simp [display, h]

/-- What is shown in colour is painted, or else the parentheses do not match. -/
theorem display_true_cases (text : String) : paint defaultPalette text = .ok (display true text) ∨
    (openBehind 0 text.toList ≠ some 0 ∧ display true text = text) := by
  cases h : paint defaultPalette text with
  | ok out =>
    left
    rw [display_of_paint h]
  | error e =>
    right
    constructor
    · have nonempty : defaultPalette.length ≠ 0 := by decide
      rw [ne_eq, ← exists_paint_iff nonempty, h]
      simp
    · simp [display, h]

end

/-! ### Escape sequences -/

section

variable {palette : List UInt8} {colour : UInt8} {c : Char}

/-- The character that escape sequences start with. -/
def escape : Char := '\x1b'

/-- The characters that parameters of an escape sequence are written with. -/
def isParameter (c : Char) : Bool := c.isDigit || c = ';'

/-- What follows the sequence at the front that sets a colour: after the escape and a bracket, parameters and an `m`. -/
def behindEscape? : List Char → Option (List Char)
  | c :: '[' :: cs =>
    if c = escape then
      match cs.dropWhile isParameter with
      | 'm' :: rest => some rest
      | _ => none
    else none
  | _ => none

private theorem length_behindEscape? {cs rest : List Char} (h : behindEscape? cs = some rest) :
    rest.length < cs.length := by
  unfold behindEscape? at h
  split at h
  · next c cs =>
    split at h
    · split at h
      · next hdrop =>
        obtain rfl := Option.some.inj h
        have shorter := (List.dropWhile_suffix isParameter (l := cs)).length_le
        rw [hdrop] at shorter
        simp only [List.length_cons] at shorter ⊢
        omega
      · exact absurd h (by simp)
    · exact absurd h (by simp)
  · exact absurd h (by simp)

/-- Deletes the sequences that set a colour, from left to right. -/
def withoutEscapes : List Char → List Char
  | [] => []
  | c :: cs =>
    match hbehind : behindEscape? (c :: cs) with
    | some rest =>
      have := length_behindEscape? hbehind
      withoutEscapes rest
    | none => c :: withoutEscapes cs
termination_by cs => cs.length
decreasing_by
  · exact this
  · exact Nat.lt_succ_self _

private theorem withoutEscapes_nil : withoutEscapes [] = [] := by
  rw [withoutEscapes]

private theorem withoutEscapes_of_some {cs rest : List Char} (h : behindEscape? (c :: cs) = some rest) :
    withoutEscapes (c :: cs) = withoutEscapes rest := by
  rw [withoutEscapes]
  split
  · next hbehind =>
    obtain rfl := Option.some.inj (hbehind.symm.trans h)
    rfl
  · next hbehind => exact absurd (hbehind.symm.trans h) (by simp)

private theorem withoutEscapes_of_none {cs : List Char} (h : behindEscape? (c :: cs) = none) :
    withoutEscapes (c :: cs) = c :: withoutEscapes cs := by
  rw [withoutEscapes]
  split
  · next hbehind => exact absurd (hbehind.symm.trans h) (by simp)
  · rfl

private theorem withoutEscapes_cons (hc : c ≠ escape) (cs : List Char) :
    withoutEscapes (c :: cs) = c :: withoutEscapes cs := by
  have no_sequence : behindEscape? (c :: cs) = none := by
    unfold behindEscape?
    split
    · next heq =>
      obtain ⟨rfl, -⟩ := List.cons.inj heq
      exact if_neg hc
    · rfl
  exact withoutEscapes_of_none no_sequence

theorem withoutEscapes_of_not_mem {cs : List Char} (h : escape ∉ cs) : withoutEscapes cs = cs := by
  induction cs with
  | nil => exact withoutEscapes_nil
  | cons c cs ih =>
    obtain ⟨hc, rest⟩ := not_or.1 (mt List.mem_cons.2 h)
    rw [withoutEscapes_cons (Ne.symm hc), ih rest]

/-- A sequence that sets a colour is deleted. -/
private theorem withoutEscapes_sequence {parameters : List Char} (h : ∀ c ∈ parameters, isParameter c)
    (cs : List Char) : withoutEscapes (escape :: '[' :: (parameters ++ 'm' :: cs)) = withoutEscapes cs := by
  have behind : behindEscape? (escape :: '[' :: (parameters ++ 'm' :: cs)) = some cs := by
    have stops : ('m' :: cs).dropWhile isParameter = 'm' :: cs := List.dropWhile_cons_of_neg (by decide)
    rw [behindEscape?, if_pos rfl, List.dropWhile_append_of_pos h, stops]
    rfl
  exact withoutEscapes_of_some behind

private theorem withoutEscapes_painted (hc : c ≠ escape) (colour : UInt8) (cs : List Char) :
    withoutEscapes (painted colour c ++ cs) = c :: withoutEscapes cs := by
  have fixed : ∀ d ∈ "38;5;".toList, isParameter d := List.all_eq_true.1 (by decide)
  have digits : ∀ d ∈ Nat.toDigits 10 colour.toNat, isParameter d := by
    intro d hd
    simp [isParameter, Nat.isDigit_of_mem_toDigits (by decide) (by decide) hd]
  have parameters : ∀ d ∈ "38;5;".toList ++ Nat.toDigits 10 colour.toNat, isParameter d :=
    List.forall_mem_append.2 ⟨fixed, digits⟩
  have off : ∀ d ∈ ['0'], isParameter d := List.all_eq_true.1 (by decide)
  have layout : painted colour c ++ cs = escape :: '[' :: (("38;5;".toList ++ Nat.toDigits 10 colour.toNat) ++ 'm' ::
      c :: escape :: '[' :: (['0'] ++ 'm' :: cs)) := by
    simp [painted, colourOn, colourOff, escape]
  rw [layout, withoutEscapes_sequence parameters, withoutEscapes_cons hc, withoutEscapes_sequence off]

theorem Coloured.withoutEscapes_eq {cs ds : List Char} (h : Coloured palette cs ds) (plain : escape ∉ cs) :
    withoutEscapes ds = cs := by
  induction h with
  | nil => exact withoutEscapes_nil
  | paren hc hcolour _ ih =>
    obtain ⟨ne, rest⟩ := not_or.1 (mt List.mem_cons.2 plain)
    rw [withoutEscapes_painted (Ne.symm ne), ih rest]
  | other hc _ ih =>
    obtain ⟨ne, rest⟩ := not_or.1 (mt List.mem_cons.2 plain)
    rw [withoutEscapes_cons (Ne.symm ne), ih rest]

end

/-! ### Telling texts apart -/

section

variable {palette : List UInt8} {colour : UInt8} {c : Char}

private theorem colourOn_eq_cons (colour : UInt8) :
    ∃ cs, colourOn colour = escape :: cs ∧ escape ∉ cs ∧ ∀ c ∈ cs, ¬ IsParen c := by
  have digits : ∀ c ∈ Nat.toDigits 10 colour.toNat, c.isDigit :=
    fun c hc => Nat.isDigit_of_mem_toDigits (by decide) (by decide) hc
  have not_digit : ∀ c : Char, ¬ c.isDigit → c ∉ Nat.toDigits 10 colour.toNat := fun c hc hmem => hc (digits c hmem)
  refine ⟨'[' :: "38;5;".toList ++ Nat.toDigits 10 colour.toNat ++ ['m'], rfl, ?_, ?_⟩
  · have no_escape := not_digit '\x1b' (by decide)
    simp [no_escape, escape]
  · rintro c hc (rfl | rfl)
    · have no_opening := not_digit '(' (by decide)
      exact absurd hc (by simp [no_opening])
    · have no_closing := not_digit ')' (by decide)
      exact absurd hc (by simp [no_closing])

private theorem openBehind_painted (hc : IsParen c) (colour : UInt8) (depth : Nat) (cs : List Char) :
    openBehind depth (painted colour c ++ cs) = openBehind depth (c :: cs) := by
  obtain ⟨codes, hcodes, -, no_paren⟩ := colourOn_eq_cons colour
  have on : ∀ d ∈ colourOn colour, ¬ IsParen d := by
    rw [hcodes, List.forall_mem_cons]
    exact ⟨by decide, no_paren⟩
  have off : ∀ d ∈ colourOff, ¬ IsParen d := by simp [colourOff, IsParen]
  have same : ∀ behind, openBehind behind (colourOff ++ cs) = openBehind behind cs := by
    intro behind
    rw [openBehind_append, openBehind_of_not_isParen off, Option.bind_some]
  rw [painted, List.append_assoc, openBehind_append, openBehind_of_not_isParen on, Option.bind_some, List.cons_append]
  rcases hc with rfl | rfl
  · rw [openBehind_opening, openBehind_opening, same]
  · cases depth with
    | zero => rw [openBehind_unopened, openBehind_unopened]
    | succ depth => rw [openBehind_closing, openBehind_closing, same]

private theorem Coloured.openBehind_eq {cs ds : List Char} (h : Coloured palette cs ds) (depth : Nat) :
    openBehind depth ds = openBehind depth cs := by
  induction h generalizing depth with
  | nil => rfl
  | @paren c colour cs ds hc _ _ ih =>
    rw [openBehind_painted hc]
    rcases hc with rfl | rfl
    · rw [openBehind_opening, openBehind_opening, ih]
    · cases depth with
      | zero => rw [openBehind_unopened, openBehind_unopened]
      | succ depth => rw [openBehind_closing, openBehind_closing, ih]
  | other hc _ ih => rw [openBehind_other hc, openBehind_other hc, ih]

/-- A parenthesis is painted only behind the escape character that the switch to its colour starts with. -/
private theorem Coloured.mem_of_paren {cs front back : List Char} (hc : IsParen c)
    (h : Coloured palette cs (front ++ c :: back)) : escape ∈ front := by
  generalize hds : front ++ c :: back = ds at h
  induction h generalizing front with
  | nil => exact absurd hds (by simp)
  | @paren d colour cs ds _ _ _ _ =>
    obtain ⟨codes, hcodes, -⟩ := colourOn_eq_cons colour
    rw [painted, hcodes, List.cons_append, List.cons_append] at hds
    cases front with
    | nil =>
      obtain ⟨rfl, -⟩ := List.cons.inj hds
      exact absurd hc (by decide)
    | cons e front =>
      obtain ⟨rfl, -⟩ := List.cons.inj hds
      exact List.mem_cons_self
  | @other d cs ds hd _ ih =>
    cases front with
    | nil =>
      obtain ⟨rfl, -⟩ := List.cons.inj hds
      exact absurd hc hd
    | cons e front => exact List.mem_cons_of_mem e (ih (List.cons.inj hds).2)

/-- A painted parenthesis cannot be taken for characters that are left as they are. -/
private theorem Coloured.cons_ne_painted {first : Char} {cs ds back : List Char} (h : Coloured palette cs ds)
    (hc : IsParen c) : first :: ds ≠ painted colour c ++ back := by
  obtain ⟨codes, hcodes, no_escape, -⟩ := colourOn_eq_cons colour
  intro heq
  rw [painted, hcodes, List.cons_append, List.cons_append, List.append_assoc] at heq
  obtain ⟨-, rfl⟩ := List.cons.inj heq
  exact no_escape (h.mem_of_paren hc)

private theorem painted_append_inj {c d : Char} {colour other : UInt8} {as bs : List Char} (hc : IsParen c)
    (hd : IsParen d) (h : painted colour c ++ as = painted other d ++ bs) : c = d ∧ as = bs := by
  -- both sides are compared from their first parentheses on
  have behind : ∀ {c : Char} {colour : UInt8} {as : List Char}, IsParen c →
      (painted colour c ++ as).dropWhile (fun d => ¬ IsParen d) = c :: (colourOff ++ as) := by
    intro c colour as hc
    obtain ⟨codes, hcodes, -, no_paren⟩ := colourOn_eq_cons colour
    have skipped : ∀ d ∈ colourOn colour, decide (¬ IsParen d) = true := by
      rw [hcodes, List.forall_mem_cons]
      exact ⟨by decide, fun d hd => decide_eq_true (no_paren d hd)⟩
    rw [painted, List.append_assoc, List.dropWhile_append_of_pos skipped, List.cons_append,
      List.dropWhile_cons_of_neg (by simpa using hc)]
  have same := congrArg (List.dropWhile fun d => ¬ IsParen d) h
  rw [behind hc, behind hd] at same
  obtain ⟨rfl, rest_same⟩ := List.cons.inj same
  exact ⟨rfl, List.append_cancel_left rest_same⟩

private theorem Coloured.exists_of_painted {bs ds : List Char} (hc : IsParen c)
    (h : Coloured palette bs (painted colour c ++ ds)) : ∃ rest, bs = c :: rest ∧ Coloured palette rest ds := by
  generalize hpainted : painted colour c ++ ds = es at h
  cases h with
  | nil => exact absurd hpainted (by simp [painted])
  | paren hd _ hrest =>
    obtain ⟨rfl, rfl⟩ := painted_append_inj hc hd hpainted
    exact ⟨_, rfl, hrest⟩
  | other _ hrest => exact absurd hpainted.symm (hrest.cons_ne_painted hc)

private theorem Coloured.exists_of_other {as bs ds : List Char} (has : Coloured palette as ds)
    (h : Coloured palette bs (c :: ds)) : ∃ rest, bs = c :: rest ∧ Coloured palette rest ds := by
  generalize hother : c :: ds = es at h
  cases h with
  | nil => exact absurd hother (by simp)
  | paren hd _ _ => exact absurd hother (has.cons_ne_painted hd)
  | other _ hrest =>
    obtain ⟨rfl, rfl⟩ := List.cons.inj hother
    exact ⟨_, rfl, hrest⟩

/-- At most one text is painted as the given characters. -/
theorem Coloured.unique {as bs ds : List Char} (ha : Coloured palette as ds) (hb : Coloured palette bs ds) :
    as = bs := by
  induction ha generalizing bs with
  | nil =>
    generalize hnil : [] = es at hb
    cases hb with
    | nil => rfl
    | paren _ _ _ => exact absurd hnil (by simp [painted])
    | other _ _ => exact absurd hnil (by simp)
  | paren hc _ _ ih =>
    obtain ⟨rest, rfl, hrest⟩ := hb.exists_of_painted hc
    rw [ih hrest]
  | other _ has ih =>
    obtain ⟨rest, rfl, hrest⟩ := has.exists_of_other hb
    rw [ih hrest]

/-- What is shown tells the text. -/
theorem display_injective (coloured : Bool) : Function.Injective (display coloured) := by
  cases coloured with
  | false => exact Function.injective_id
  | true =>
    -- the parentheses of what is shown match if those of the text do
    have matching_of_painted : ∀ s t, paint defaultPalette s = .ok t → openBehind 0 t.toList = some 0 := by
      intro s t ht
      have matching := (exists_paint_iff (by decide)).1 ⟨t, ht⟩
      rw [(coloured_of_paint ht).openBehind_eq, matching]
    intro s t same
    rcases display_true_cases s with hs | ⟨unmatched_s, hs⟩ <;> rcases display_true_cases t with ht | ⟨unmatched_t, ht⟩
    · rw [← same] at ht
      exact String.toList_inj.1 ((coloured_of_paint hs).unique (coloured_of_paint ht))
    · rw [same, ht] at hs
      exact absurd (matching_of_painted s t hs) unmatched_t
    · rw [← same, hs] at ht
      exact absurd (matching_of_painted t s ht) unmatched_s
    · exact hs.symm.trans (same.trans ht)

end

end PolyDeriv
