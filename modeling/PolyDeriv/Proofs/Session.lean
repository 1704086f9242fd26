import PolyDeriv.Proofs.Answers
import PolyDeriv.Proofs.Lines

/-!
# Sessions line by line

The output of a session is made of one reply for each line, whatever the other lines are, and it breaks off at the first
line that is not text (`Session.run_by_lines`).

* Replies to texts come one after the other (`Session.replies_texts_append`), and nothing is written any more from a line
  on that is no text (`Session.replies_bad`).
* Every sequence of lines falls into texts at the front and, unless they are all texts, a line that is none
  (`texts_or_bad`).
-/

namespace PolyDeriv

/-! ### Texts among lines -/

/-- Lines are texts all along, or up to one that is not. -/
theorem texts_or_bad (lines : List (List UInt8)) : (∃ texts : List String, lines = texts.map utf8) ∨
    ∃ (texts : List String) (bad : List UInt8) (rest : List (List UInt8)),
      lines = texts.map utf8 ++ bad :: rest ∧ ∀ text, utf8 text ≠ bad := by
  induction lines with
  | nil => exact .inl ⟨[], rfl⟩
  | cons line lines ih =>
    by_cases hline : ∃ text, utf8 text = line
    · obtain ⟨text, rfl⟩ := hline
      rcases ih with ⟨texts, rfl⟩ | ⟨texts, bad, rest, rfl, hbad⟩
      · exact .inl ⟨text :: texts, rfl⟩
      · exact .inr ⟨text :: texts, bad, rest, rfl, hbad⟩
    · exact .inr ⟨[], line, lines, rfl, fun text htext => hline ⟨text, htext⟩⟩

/-- A text that is empty or ends at a line feed has bytes of that kind. -/
private theorem ends_of_text {text : String} (h : text.toList = [] ∨ text.toList.getLast? = some '\n') :
    utf8 text = [] ∨ (utf8 text).getLast? = some 10 := by
  rw [utf8_eq_flatMap]
  rcases h with h | h
  · exact .inl (by rw [h, List.flatMap_nil])
  · obtain ⟨init, hinit⟩ := List.getLast?_eq_some_iff.1 h
    have feed : String.utf8EncodeChar '\n' = [10] := by decide
    exact .inr (by rw [hinit, List.flatMap_append, List.flatMap_singleton, feed, List.getLast?_concat])

private theorem isSeparator_iff {c : Char} : isSeparator c ↔ c ∈ [' ', '\t', '\n', '\r'] := by
  simp [isSeparator, or_assoc]

namespace Session

variable {settings : Settings}

/-! ### Replies -/

theorem replies_texts_append (texts : List String) (lines : List (List UInt8)) :
    replies settings (texts.map utf8 ++ lines) =
      ⟨String.join (texts.map (reply settings)) ++ (replies settings lines).output, (replies settings lines).readable⟩ := by
  induction texts with
  | nil => simp
  | cons text texts ih =>
    rw [List.map_cons, List.cons_append, replies, decodeLine?_utf8]
    simp only [ih, List.map_cons, String.join_cons, String.append_assoc]

theorem replies_texts (texts : List String) :
    replies settings (texts.map utf8) = ⟨String.join (texts.map (reply settings)), true⟩ := by
  have none_left := @replies_texts_append settings texts []
  simpa [replies] using none_left

/-- A line that is not text ends the replies, whatever follows it. -/
theorem replies_bad {bad : List UInt8} (h : ∀ text, utf8 text ≠ bad) (texts : List String)
    (rest : List (List UInt8)) :
    replies settings (texts.map utf8 ++ bad :: rest) = ⟨String.join (texts.map (reply settings)), false⟩ := by
  have ended : replies settings (bad :: rest) = ⟨"", false⟩ := by rw [replies, decodeLine?_eq_none_iff.2 h]
  rw [replies_texts_append, ended, String.append_empty]

/-- A session is readable if its lines are texts. -/
theorem readable_replies_iff {lines : List (List UInt8)} :
    (replies settings lines).readable = true ↔ ∀ line ∈ lines, ∃ text, utf8 text = line := by
  rcases texts_or_bad lines with ⟨texts, rfl⟩ | ⟨texts, bad, rest, rfl, hbad⟩
  · simp [replies_texts]
  · rw [replies_bad hbad]
    refine iff_of_false (by simp) fun h => ?_
    obtain ⟨text, htext⟩ := h bad (by simp)
    exact hbad text htext

/-- Further lines are replied to if the lines before them are texts. -/
theorem replies_append (lines more : List (List UInt8)) :
    replies settings (lines ++ more) =
      if (replies settings lines).readable then
        ⟨(replies settings lines).output ++ (replies settings more).output, (replies settings more).readable⟩
      else replies settings lines := by
  rcases texts_or_bad lines with ⟨texts, rfl⟩ | ⟨texts, bad, rest, rfl, hbad⟩
  · rw [replies_texts_append, replies_texts, if_pos rfl]
  · rw [List.append_assoc, List.cons_append, replies_bad hbad, replies_bad hbad, if_neg Bool.false_ne_true]

/-! ### Sessions -/

/-- What is to be seen of a session when it has replied to texts: a line, a prompt, and for every text its answer, if it
has more than separators, and the next prompt. -/
def shown (settings : Settings) (texts : List String) : String :=
  "\n" ++ greeting ++ "\n" ++ "\n" ++ prompt ++ String.join (texts.map fun text =>
    (if text.toList.any (· ∉ [' ', '\t', '\n', '\r']) then answer settings text ++ "\n" else "") ++ "\n" ++ prompt)

theorem reply_eq (text : String) : reply settings text =
    (if text.toList.any (· ∉ [' ', '\t', '\n', '\r']) then answer settings text ++ "\n" else "") ++ "\n" ++ prompt := by
  have blank_iff : isBlank text ↔ ¬ text.toList.any (· ∉ [' ', '\t', '\n', '\r']) := by
    simp only [isBlank, List.all_eq_true, List.any_eq_true, isSeparator_iff, decide_eq_true_eq, not_exists, not_and,
      not_not]
  rw [reply]
  by_cases hblank : isBlank text
  · rw [if_pos hblank, if_neg (blank_iff.1 hblank)]
  · rw [if_neg hblank, if_pos (by_contra fun h => hblank (blank_iff.2 h))]

theorem shown_eq (texts : List String) : shown settings texts = header ++ String.join (texts.map (reply settings)) := by
  have replies_shown : (texts.map fun text =>
      (if text.toList.any (· ∉ [' ', '\t', '\n', '\r']) then answer settings text ++ "\n" else "") ++ "\n" ++ prompt) =
        texts.map (reply settings) := List.map_congr_left fun text _ => (reply_eq text).symm
  have header_shown : "\n" ++ greeting ++ "\n" ++ "\n" ++ prompt = header := by decide
  rw [shown, replies_shown, header_shown]

theorem run_of_texts {input : ByteArray} {texts : List String} (h : FallsInto input.data.toList (texts.map utf8)) :
    run settings input = ⟨shown settings texts ++ "\n", true⟩ := by
  rw [run, splitLines_of_fallsInto h, replies_texts, shown_eq]
  rfl

theorem run_of_bad {input : ByteArray} {texts : List String} {bad : List UInt8} {rest : List (List UInt8)}
    (h : FallsInto input.data.toList (texts.map utf8 ++ bad :: rest)) (hbad : ∀ text, utf8 text ≠ bad) :
    run settings input = ⟨shown settings texts, false⟩ := by
  rw [run, splitLines_of_fallsInto h, replies_bad hbad, shown_eq]
  simp

/-- A session on one text after another shows what the two sessions show, without the end of the first and the beginning
of the second. -/
theorem run_append {a : String} (h : a.toList = [] ∨ a.toList.getLast? = some '\n') (b : String) :
    ∃ s t, run settings a.toUTF8 = ⟨s ++ "\n", true⟩ ∧ run settings b.toUTF8 = ⟨header ++ t, true⟩ ∧
      run settings (a.toUTF8 ++ b.toUTF8) = ⟨s ++ t, true⟩ := by
  have lines_of : ∀ text, ∃ texts : List String, FallsInto (utf8 text) (texts.map utf8) := by
    intro text
    obtain ⟨texts, htexts⟩ := exists_texts_of_fallsInto (fallsInto_splitLines (utf8 text))
    exact ⟨texts, htexts ▸ fallsInto_splitLines (utf8 text)⟩
  obtain ⟨as, has⟩ := lines_of a
  obtain ⟨bs, hbs⟩ := lines_of b
  have both : FallsInto (a.toUTF8 ++ b.toUTF8).data.toList ((as ++ bs).map utf8) := by
    have bytes : (a.toUTF8 ++ b.toUTF8).data.toList = utf8 a ++ utf8 b := by simp [utf8]
    rw [bytes, List.map_append, fallsInto_iff_splitLines, splitLines_append (ends_of_text h),
      splitLines_of_fallsInto has, splitLines_of_fallsInto hbs]
  refine ⟨shown settings as, String.join (bs.map (reply settings)) ++ "\n", run_of_texts has, ?_, ?_⟩
  · rw [run_of_texts hbs, shown_eq, String.append_assoc]
  · rw [run_of_texts both, shown_eq, shown_eq, List.map_append, String.join_append]
    simp only [String.append_assoc]

/-- A session replies to every line on its own, and it ends early only at a line that is not text.  It never takes a line
to be empty that it answers. -/
theorem run_by_lines (settings : Settings) :
    (∀ input : ByteArray, ∃! lines, FallsInto input.data.toList lines) ∧
    (∀ (input : ByteArray) (texts : List String), FallsInto input.data.toList (texts.map utf8) →
      run settings input = ⟨shown settings texts ++ "\n", true⟩) ∧
    (∀ (input : ByteArray) (texts : List String) (bad : List UInt8) (rest : List (List UInt8)),
      FallsInto input.data.toList (texts.map utf8 ++ bad :: rest) → (∀ text, utf8 text ≠ bad) →
        run settings input = ⟨shown settings texts, false⟩) ∧
    (∀ a b : String, a.toList = [] ∨ a.toList.getLast? = some '\n' →
      ∃ s t, run settings a.toUTF8 = ⟨s ++ "\n", true⟩ ∧ run settings b.toUTF8 = ⟨header ++ t, true⟩ ∧
        run settings (a.toUTF8 ++ b.toUTF8) = ⟨s ++ t, true⟩) ∧
    ∀ text : String, (∃ c ∈ text.toList, c ∉ [' ', '\t', '\n', '\r']) →
      simplifiedDerivativeText settings.var text ≠ .error (.parse .empty) ∧
        answer settings text ≠ "Error: Parse error: empty input" := by
  refine ⟨?_, fun input texts => run_of_texts, fun input texts bad rest => run_of_bad, fun a b h => run_append h b, ?_⟩
  · intro input
    exact ⟨splitLines input.data.toList, fallsInto_splitLines _, fun lines h => (splitLines_of_fallsInto h).symm⟩
  · intro text h
    have not_blank : ∃ c ∈ text.toList, ¬ isSeparator c := by simpa only [isSeparator_iff] using h
    exact ⟨simplifiedDerivativeText_ne_empty not_blank, answer_ne_empty not_blank settings.coloured⟩

/-- A constant on a line that ends with a carriage return, a byte that is not text, and a rest that is not read. -/
theorem run_by_lines_unreadable :
    run {} ⟨#[49, 13, 10, 255, 10, 120]⟩ = ⟨shown {} ["1"], false⟩ ∧
      shown {} ["1"] = "\nd/dx, simplify, print\n\nd/dx 0\n\nd/dx " ∧
    (∃ s t, run {} "(^ x 3)\n".toUTF8 = ⟨s ++ "\n", true⟩ ∧ run {} "y\r".toUTF8 = ⟨header ++ t, true⟩ ∧
      run {} ("(^ x 3)\n".toUTF8 ++ "y\r".toUTF8) = ⟨s ++ t, true⟩) ∧
    answer {} "y\r" ≠ "Error: Parse error: empty input" := by
  obtain ⟨-, -, unreadable, appended, never_empty⟩ := run_by_lines {}
  have lines : FallsInto [49, 13, 10, 255, 10, 120] (["1"].map utf8 ++ [255] :: [[120]]) :=
    fallsInto_iff_splitLines.2 (by decide +kernel)
  have not_text : ∀ text, utf8 text ≠ [255] := decodeLine?_eq_none_iff.1 (by decide +kernel)
  refine ⟨unreadable _ ["1"] [255] [[120]] lines not_text, ?_, appended _ _ (.inr (by decide)), ?_⟩
  · decide +kernel
  · exact (never_empty "y\r" ⟨'y', by decide, by decide⟩).2

end Session
end PolyDeriv
