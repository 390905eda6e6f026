import PocketPascal.Token.Feed

/-!
# Cursors

A reader of the grammar sees the tokens through a cursor: one current token, the tokens that were
eaten last, and the feed that the next ones come from. `eat` moves it on by one token if the current
token has the kind that the grammar asks for. The token after it is pulled first, so a lexical error
there is reported in place of the success, and then the cursor does not move, though the feed has.

A `Reading` is the outcome of reading a piece of the grammar. A success holds a proof that the cursor
has come nearer to the end of the input, which is what makes the readers terminate.
-/

namespace PocketPascal

/-- A position in a sequence of tokens. -/
structure Cursor where
  /-- The tokens eaten last, the oldest first; no more of them than an error shows. -/
  recent : List Token
  /-- The token at the position. -/
  current : Token
  /-- Where the tokens after it come from. -/
  ahead : Feed

namespace Cursor

/-- The cursor at the first token of a feed, unless that token cannot be scanned. -/
def ofFeed (feed : Feed) : Except SyntaxError Cursor :=
  match feed.pull with
  | (.ok t, ahead) => .ok ⟨[], t, ahead⟩
  | (.error e, _) => .error (.lexical e)

/-- The cursor at the first token of a source text. -/
def ofSource (source : String) : Except SyntaxError Cursor := ofFeed (Feed.ofSource source)

/-- How many of the eaten tokens an error shows. -/
def recentCount : Nat := 5

/-- The tokens eaten last when one more has been eaten. The oldest one gives way to it if there are
as many as an error shows. -/
def remember (recent : List Token) (t : Token) : List Token :=
  (if recent.length = recentCount then recent.tail else recent) ++ [t]

/-- Whether the current token has a given kind. -/
def isAt (c : Cursor) (kind : Kind) : Bool := c.current.kind = kind

/-- How many tokens can still be eaten, at most: those of the feed, and the current one unless it is
the end of the input. -/
def remaining (c : Cursor) : Nat :=
  c.ahead.answers.length + if c.current.kind = .finish then 0 else 1

/-- The error at a token that is not of the kind the grammar asks for. -/
def unexpected (c : Cursor) (expected : Kind) : SyntaxError :=
  .unexpected expected c.current.culprit c.recent

end Cursor

/-- The outcome of reading a piece of the grammar. On success fewer than `bound` tokens remain. -/
inductive Reading (bound : Nat) (α : Type) where
  /-- The piece has been read, and `after` is the position after it. -/
  | done (value : α) (after : Cursor) (lt : after.remaining < bound)
  /-- The piece could not be read; `after` is the position that was reached. -/
  | failed (cause : SyntaxError) (after : Cursor)

namespace Reading

variable {α β : Type} {n m : Nat}

/-- The outcome without the position: the value or the error. -/
def result : Reading n α → Except SyntaxError α
  | done value _ _ => .ok value
  | failed cause _ => .error cause

/-- The position that was reached. -/
def after : Reading n α → Cursor
  | done _ after _ => after
  | failed _ after => after

/-- Goes on reading after a success. -/
def bind (r : Reading n α) (next : α → (c : Cursor) → c.remaining < n → Reading m β) :
    Reading m β :=
  match r with
  | done value after lt => next value after lt
  | failed cause after => failed cause after

/-- Makes another value of the one that was read. -/
def map (f : α → β) : Reading n α → Reading n β
  | done value after lt => done (f value) after lt
  | failed cause after => failed cause after

/-- The same outcome under a larger bound. -/
def weaken (h : n ≤ m) : Reading n α → Reading m α
  | done value after lt => done value after (Nat.lt_of_lt_of_le lt h)
  | failed cause after => failed cause after

@[simp] theorem result_done (value : α) (c : Cursor) (lt : c.remaining < n) :
    (done value c lt).result = .ok value := rfl

@[simp] theorem result_failed (cause : SyntaxError) (c : Cursor) :
    (failed cause c : Reading n α).result = .error cause := rfl

@[simp] theorem after_done (value : α) (c : Cursor) (lt : c.remaining < n) :
    (done value c lt).after = c := rfl

@[simp] theorem after_failed (cause : SyntaxError) (c : Cursor) :
    (failed cause c : Reading n α).after = c := rfl

@[simp] theorem result_map (f : α → β) (r : Reading n α) : (r.map f).result = r.result.map f := by
  cases r <;> rfl

@[simp] theorem after_map (f : α → β) (r : Reading n α) : (r.map f).after = r.after := by
  cases r <;> rfl

@[simp] theorem result_weaken (h : n ≤ m) (r : Reading n α) : (r.weaken h).result = r.result := by
  cases r <;> rfl

@[simp] theorem after_weaken (h : n ≤ m) (r : Reading n α) : (r.weaken h).after = r.after := by
  cases r <;> rfl

end Reading

namespace Cursor

/-- The cursor after its current token, once `next` has been pulled from the feed. -/
def advance (c : Cursor) (next : Token) (ahead : Feed) : Cursor :=
  ⟨remember c.recent c.current, next, ahead⟩

/-- Moving on brings the cursor nearer to the end, unless it is there. -/
theorem remaining_advance_lt {c : Cursor} {next : Token} {ahead : Feed}
    (hp : c.ahead.pull = (.ok next, ahead)) (hk : c.current.kind ≠ .finish) :
    (c.advance next ahead).remaining < c.remaining := by
  unfold remaining advance
  have le : ahead.answers.length ≤ c.ahead.answers.length := by
    simpa [hp] using Feed.length_pull_le c.ahead
  by_cases hn : next.kind = .finish
  · simp only [hn, hk, if_true, if_false]
    omega
  · have lt := Feed.length_lt_of_pull hp hn
    simp only [hn, hk, if_false]
    omega

/-- Eats the current token if it has the given kind, which is never the end of the input. -/
def eat (c : Cursor) (kind : Kind) (hk : kind ≠ .finish := by decide) : Reading c.remaining Token :=
  if hc : c.current.kind = kind then
    match hp : c.ahead.pull with
    | (.ok next, ahead) =>
        .done c.current (c.advance next ahead) (remaining_advance_lt hp (hc ▸ hk))
    | (.error e, ahead) => .failed (.lexical e) { c with ahead }
  else .failed (c.unexpected kind) c

/-! ## The three outcomes of eating -/

/-- A cursor at a token of another kind does not move. -/
theorem eat_of_ne {c : Cursor} {kind : Kind} (hk : kind ≠ .finish) (hc : c.current.kind ≠ kind) :
    c.eat kind hk = .failed (c.unexpected kind) c := by
  rw [eat, dif_neg hc]

/-- If the token after the current one cannot be scanned, only the feed moves on. -/
theorem eat_of_pull_error {c : Cursor} {kind : Kind} {e : LexicalError} {ahead : Feed}
    (hk : kind ≠ .finish) (hc : c.current.kind = kind) (hp : c.ahead.pull = (.error e, ahead)) :
    c.eat kind hk = .failed (.lexical e) { c with ahead } := by
  rw [eat, dif_pos hc]
  split
  · rename_i h
    rw [hp] at h
    cases h
  · rename_i h
    rw [hp] at h
    cases h
    rfl

/-- If the token after the current one can be scanned, the current one is eaten. -/
theorem eat_of_pull_ok {c : Cursor} {kind : Kind} {next : Token} {ahead : Feed}
    (hk : kind ≠ .finish) (hc : c.current.kind = kind) (hp : c.ahead.pull = (.ok next, ahead)) :
    c.eat kind hk = .done c.current (c.advance next ahead) (remaining_advance_lt hp (hc ▸ hk)) := by
  rw [eat, dif_pos hc]
  split
  · rename_i h
    rw [hp] at h
    cases h
    rfl
  · rename_i h
    rw [hp] at h
    cases h

end Cursor

end PocketPascal
