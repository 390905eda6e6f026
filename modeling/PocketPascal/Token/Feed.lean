import PocketPascal.Token.Scanner

/-!
# The feed of a scanner

A reader of tokens sees of a source text only what its scanner hands out: one answer after another,
each a token or an error, and then the end of the input for ever. The feed is this sequence as data:
finitely many answers before the end, and the line of the end.
-/

namespace PocketPascal

/-- What a scanner hands out, one answer after another. -/
structure Feed where
  /-- The tokens and errors before the end of the input. -/
  answers : List (Except LexicalError Token)
  /-- The line of the end of the input. -/
  endLine : Nat

namespace Feed

/-- The feed with one more answer in front. -/
def cons (answer : Except LexicalError Token) (feed : Feed) : Feed :=
  ⟨answer :: feed.answers, feed.endLine⟩

/-- The next answer, and the feed after it. Past the last answer stands the end of the input, again
and again. -/
def pull (feed : Feed) : Except LexicalError Token × Feed :=
  match feed.answers with
  | [] => (.ok (.finish feed.endLine), feed)
  | answer :: answers => (answer, ⟨answers, feed.endLine⟩)

/-- The feed of a scanner. -/
def ofScanner (s : Scanner) : Feed :=
  match _h : s.next with
  | (.ok t, after) => if _hk : t.kind = .finish then ⟨[], t.line⟩ else cons (.ok t) (ofScanner after)
  | (.error e, after) => cons (.error e) (ofScanner after)
termination_by s.rest.length
decreasing_by
  · exact Scanner.length_lt_of_next_ok _h _hk
  · exact Scanner.length_lt_of_next_error _h

/-- The feed of a source text. -/
def ofSource (source : String) : Feed := ofScanner (Scanner.ofSource source)

/-- A pull takes at most one answer away. -/
theorem length_pull_le (feed : Feed) : feed.pull.2.answers.length ≤ feed.answers.length := by
  unfold pull
  split <;> simp_all

/-- A pull that gives a token other than the end of the input takes an answer away. -/
theorem length_lt_of_pull {feed after : Feed} {t : Token} (h : feed.pull = (.ok t, after))
    (hk : t.kind ≠ .finish) : after.answers.length < feed.answers.length := by
  unfold pull at h
  split at h
  · cases h
    exact absurd rfl hk
  · rename_i answer answers heq
    cases h
    simp [heq]

end Feed

end PocketPascal
