import PolyDeriv.Proofs.CommandLine

/-!
# Sessions as their input arrives

A session that replies to a chunk of its input whenever one has arrived comes to the same as one that is given all of
its input at once (`CommandLine.opening_andThen_serve`), however the input is cut.  Other commands have no use for an
input (`CommandLine.run_of_not_session`).

* The replies to the lines that a chunk completes are the first replies to the whole
  (`CommandLine.feed_andThen_finish`), and no line whose end has arrived is kept waiting
  (`CommandLine.feed_notMem_of_feed`).
* So the replies chunk by chunk are `Session.replies` to the lines of all chunks together
  (`CommandLine.serve_eq_finish`, by induction on the chunks).
-/

namespace PolyDeriv

namespace Log

private theorem render_append (verbosity : Nat) (entries more : List LogEntry) :
    render verbosity (entries ++ more) = render verbosity entries ++ render verbosity more := by
  rw [render, List.filter_append, List.map_append, String.join_append]
  rfl

/-- The log of further lines follows if the lines before them are texts. -/
theorem replies_append (settings : Session.Settings) (lines more : List (List UInt8)) :
    replies settings (lines ++ more) =
      replies settings lines ++ if (Session.replies settings lines).readable then replies settings more else [] := by
  induction lines with
  | nil => rfl
  | cons line lines ih =>
    rw [List.cons_append, replies, replies, Session.replies]
    cases decodeLine? line with
    | none => rfl
    | some text => simp only [ih, List.append_assoc]

end Log

namespace CommandLine

variable {settings : Session.Settings} {verbosity : Nat}

/-! ### Chunks -/

/-- What a chunk completes is replied to first, and the pending bytes and the rest of the input after it. -/
theorem feed_andThen_finish (pending chunk more : List UInt8) :
    ((feed settings verbosity pending chunk).andThen fun later => finish settings verbosity (later ++ more)) =
      finish settings verbosity (pending ++ chunk ++ more) := by
  rw [finish, ← completeLines_append, Session.replies_append, Log.replies_append, Log.render_append, feed]
  by_cases readable : (Session.replies settings (completeLines (pending ++ chunk))).readable
  · rw [if_pos readable, if_pos readable, if_pos readable]
    dsimp only [Turn.andThen, finish]
    split <;> simp only [String.append_assoc]
  · have nothing : Log.render verbosity [] = "" := rfl
    rw [if_neg readable, if_neg readable, if_neg readable, if_neg readable, nothing, String.append_empty]
    rfl

/-- No line is kept waiting behind its end. -/
theorem feed_notMem_of_feed {pending chunk later : List UInt8}
    (h : (feed settings verbosity pending chunk).pending = some later) : 10 ∉ later := by
  rw [feed] at h
  split at h
  · obtain rfl := Option.some.inj h
    exact feed_notMem_pendingBytes _
  · exact absurd h (by simp)

/-- Chunk by chunk, a session gives the same replies as to the lines of the whole input, with the same log and code. -/
theorem serve_eq_finish (pending : List UInt8) (chunks : List (List UInt8)) :
    serve settings verbosity pending chunks = finish settings verbosity (pending ++ chunks.flatten) := by
  induction chunks generalizing pending with
  | nil => rw [serve, List.flatten_nil, List.append_nil]
  | cons chunk chunks ih =>
    simp only [serve, ih]
    rw [feed_andThen_finish, List.flatten_cons, List.append_assoc]

/-! ### Whole inputs -/

/-- A session comes to the same if its input arrives in chunks, however it is cut. -/
theorem opening_andThen_serve (terminal : Bool) (options : Options) (chunks : List (List UInt8)) :
    ((opening terminal options).andThen fun pending =>
        serve (sessionSettings terminal options) options.verbosity pending chunks) =
      execute terminal options .session ⟨chunks.flatten.toArray⟩ := by
  simp only [serve_eq_finish]
  by_cases h : IsSymbol options.var
  · rw [opening, execute, if_pos (isSymbol_iff_accepts.1 h), if_pos (isSymbol_iff_accepts.1 h)]
    dsimp only [Turn.andThen, finish, Session.run, Log.session]
    rw [List.nil_append, Log.render_append]
    split
    · simp only [String.append_assoc]
    · simp only [String.append_assoc, String.append_empty]
  · rw [execute_of_not_isSymbol h, opening, if_neg (mt isSymbol_iff_accepts.2 h)]
    rfl

/-- Only a session reads an input. -/
theorem run_of_not_session {args : List String} (h : ∀ options, parse args ≠ some (.invoke options .session))
    (terminal : Bool) (input : ByteArray) : run terminal args input = run terminal args .empty := by
  rw [run, run]
  cases found : parse args with
  | none => rfl
  | some request =>
    cases request with
    | help | version => rfl
    | invoke options command =>
      cases command with
      | session => exact absurd found (h options)
      | derivative _ | simplify _ => rfl

end CommandLine
end PolyDeriv
