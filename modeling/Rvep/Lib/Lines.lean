/-!
# Splitting a stream into lines

A splitter takes one symbol at a time and with some of them ends a line. Lines
that it holds up to their end are read back from the stream they make.
-/

namespace Lines

variable {α : Type u} {σ : Type v}

/-- The line that a symbol ends, if it ends one. -/
abbrev Splitter (σ : Type v) (α : Type u) := σ → α → σ × Option (List α)

def run (step : Splitter σ α) (s : σ) : List α → σ × List (List α)
  | [] => (s, [])
  | c :: cs =>
    let (s, line) := step s c
    let (s, lines) := run step s cs
    (s, line.toList ++ lines)

/-- Each line with its end. -/
def join (stop : α) (lines : List (List α)) : List α := lines.flatMap (· ++ [stop])

/-- `held done s`: in the state `s` the splitter holds the part `done` of the line. -/
structure Holds (step : Splitter σ α) (ready : σ) (stop : α) (line : List α)
    (held : List α → σ → Prop) : Prop where
  start : held [] ready
  keep : ∀ done c rest s, done ++ c :: rest = line → held done s →
    ∃ s', step s c = (s', none) ∧ held (done ++ [c]) s'
  finish : ∀ s, held line s → step s stop = (ready, some line)

variable {step : Splitter σ α} {ready : σ} {stop : α} {line : List α} {held : List α → σ → Prop}

theorem Holds.run_rest (h : Holds step ready stop line held) {done rest : List α} {s : σ}
    (hline : done ++ rest = line) (hs : held done s) (cs : List α) :
    run step s (rest ++ stop :: cs) =
      ((run step ready cs).1, line :: (run step ready cs).2) := by
  induction rest generalizing done s with
  | nil =>
    rw [List.append_nil] at hline
    subst hline
    rw [List.nil_append, run, h.finish s hs]
    rfl
  | cons c rest ih =>
    obtain ⟨s', hstep, hs'⟩ := h.keep done c rest s hline hs
    have hrest := ih (by rw [List.append_assoc, List.singleton_append, hline]) hs'
    rw [List.cons_append, run, hstep]
    simp only [hrest, Option.toList_none, List.nil_append]

/-- A stream of lines is read as these lines. -/
theorem run_join {lines : List (List α)}
    (h : ∀ line ∈ lines, ∃ held, Holds step ready stop line held) :
    run step ready (join stop lines) = (ready, lines) := by
  induction lines with
  | nil => rfl
  | cons line lines ih =>
    obtain ⟨⟨held, hline⟩, hlines⟩ := List.forall_mem_cons.mp h
    have hrest := ih hlines
    rw [join] at hrest
    rw [join, List.flatMap_cons, List.append_assoc, List.singleton_append,
      hline.run_rest (List.nil_append line) hline.start, hrest]

end Lines
