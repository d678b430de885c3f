import JavaSyntax.Proofs.Lexer.Delivery
import JavaSyntax.Proofs.Work

/-!
# What the cursor reads

The cursor asks the lexer for tokens one after the other and keeps them. Each operation
of the cursor has one equation, or one statement in terms of what the lexer delivers.
-/

namespace JavaSyntax

namespace Cursor

open Work

variable {c c' : Cursor} {n : Nat}

/-! ### Reading ahead -/

/-- Reading a token asks the lexer and keeps what it delivers, or leaves the cursor with the lexer
that refused. -/
theorem readToken_apply (c : Cursor) :
    readToken c = match c.lexer.lex with
      | ⟨.ok token, lexer, events⟩ =>
        (.ok (), { c with
          lexer := lexer, buffer := c.buffer.push token, journal := c.journal ++ events })
      | ⟨.error e, lexer, events⟩ =>
        (.error e, { c with lexer := lexer, journal := c.journal ++ events }) := by
  unfold readToken
  rw [bind_apply, get_apply]
  simp only [bind_apply, set_apply, lift_apply, modify_apply]
  rcases c.lexer.lex with ⟨_ | _, _, _⟩ <;> rfl

/-- Reading several tokens stops at the end of the text and at a refusal. -/
theorem readTokens_succ_apply (n : Nat) (c : Cursor) :
    readTokens (n + 1) c =
      if c.reachedEnd then (.ok (), c)
      else match readToken c with
        | (.ok _, c) => readTokens n c
        | (.error e, c) => (.error e, c) := by
  rw [readTokens, bind_apply]
  cases hend : c.reachedEnd with
  | false =>
    simp only [get_apply, hend, Bool.false_eq_true, if_false, bind_apply]
    rcases readToken c with ⟨_ | _, _⟩ <;> rfl
  | true => simp [get_apply, hend, pure_apply]

/-- A cursor after it has read some more tokens, and nothing else has changed. -/
structure ReadsOn (c : Cursor) (ts : List Token) (c' : Cursor) : Prop where
  position_eq : c'.position = c.position
  splits_eq : c'.splits = c.splits
  buffer_eq : c'.buffer.toList = c.buffer.toList ++ ts
  text_eq : c'.text = c.text

/-- Reading nothing changes nothing. -/
theorem ReadsOn.refl (c : Cursor) : ReadsOn c [] c := ⟨rfl, rfl, by simp, rfl⟩

/-- Reading on twice is reading on. -/
theorem ReadsOn.trans {c'' : Cursor} {ts us : List Token} (h : c.ReadsOn ts c')
    (h' : c'.ReadsOn us c'') : c.ReadsOn (ts ++ us) c'' where
  position_eq := h'.position_eq.trans h.position_eq
  splits_eq := h'.splits_eq.trans h.splits_eq
  buffer_eq := by rw [h'.buffer_eq, h.buffer_eq, List.append_assoc]
  text_eq := h'.text_eq.trans h.text_eq

/-- Tokens that are read are added to the buffer. -/
theorem ReadsOn.size_eq {ts : List Token} (h : c.ReadsOn ts c') :
    c'.buffer.size = c.buffer.size + ts.length := by
  simpa using congrArg List.length h.buffer_eq

/-- What comes of reading so many tokens: they are read, or as many as there are, or the
lexer refuses to deliver one of them. -/
inductive Reads (c : Cursor) (n : Nat) : Except LexError Unit × Cursor → Prop
  | done {c' : Cursor} {ts : List Token} (hreads : c.ReadsOn ts c')
      (hlexer : c.lexer.Delivers ts c'.lexer) (hend : c.reachedEnd = true → ts = [])
      (hmost : ts.length ≤ n) (henough : ts.length = n ∨ c'.reachedEnd = true) :
      Reads c n (.ok (), c')
  | failed {c' : Cursor} {ts : List Token} {m : Lexer} {e : LexError} (hreads : c.ReadsOn ts c')
      (hlexer : c.lexer.Delivers ts m) (hstart : c.reachedEnd = false)
      (hend : c'.reachedEnd = false) (hmost : ts.length < n)
      (herror : m.lex.result = .error e) (hafter : c'.lexer = m.lex.lexer) :
      Reads c n (.error e, c')

/-- Reading so many tokens comes to what is said of it. -/
theorem reads_readTokens (n : Nat) (c : Cursor) : Reads c n (readTokens n c) := by
  induction n generalizing c with
  | zero => exact .done (.refl c) (.nil _) (fun _ => rfl) (Nat.le_refl _) (.inl rfl)
  | succ n ih =>
    rw [readTokens_succ_apply, readToken_apply]
    by_cases hend : c.reachedEnd = true
    · rw [if_pos hend]
      exact .done (.refl c) (.nil _) (fun _ => rfl) (Nat.zero_le _) (.inr hend)
    rw [if_neg hend]
    have hopen : c.reachedEnd = false := by simpa using hend
    rcases hlex : c.lexer.lex with ⟨e | t, lexer, events⟩
    · have htext := c.lexer.text_lex
      rw [hlex] at htext
      exact .failed ⟨rfl, rfl, (List.append_nil _).symm, htext⟩ (.nil _) hopen hopen
        (Nat.zero_lt_succ n) (by rw [hlex]) (by rw [hlex])
    have hresult : c.lexer.lex.result = .ok t := by rw [hlex]
    have hlexer : c.lexer.lex.lexer = lexer := by rw [hlex]
    generalize hnext : ({ c with
        lexer := lexer, buffer := c.buffer.push t, journal := c.journal ++ events } : Cursor) =
      next
    have hsame : c.lexer.lex.lexer = next.lexer := by rw [hlexer, ← hnext]
    have hstep : c.ReadsOn [t] next := by
      subst hnext
      refine ⟨rfl, rfl, by simp, ?_⟩
      rw [text, text, ← hlexer, c.lexer.text_lex]
    have hreached : next.reachedEnd = t.isEnd := by
      subst hnext
      simp [reachedEnd]
    simp only [hnext]
    generalize hread : readTokens n next = outcome
    have hreads := ih next
    rw [hread] at hreads
    cases hreads with
    | @done c' ts hon hdelivers hnone hmost henough =>
      refine .done (hstep.trans hon) (.cons hresult ?_ ?_) (fun h => absurd h hend) ?_ ?_
      · exact fun ht => hnone (hreached.trans ht)
      · rwa [hsame]
      · simpa using hmost
      · simpa using henough
    | @failed c' ts m e hon hdelivers hstart hnone hmost herror hafter =>
      refine .failed (hstep.trans hon) (.cons hresult ?_ ?_) hopen hnone (by simpa using hmost)
        herror hafter
      · rw [← hreached, hstart]
        exact nofun
      · rwa [hsame]

/-! ### Looking, taking and splitting -/

/-- Looking ahead reads what is missing and finds the token there, unless the lexer refuses. -/
theorem peekAhead_apply (n : Nat) (c : Cursor) :
    peekAhead n c = match readTokens (c.position + n + 1 - c.buffer.size) c with
      | (.ok _, c') => (.ok (c'.tokenAt (c.position + n)), c')
      | (.error e, c') => (.error e, c') := by
  unfold peekAhead
  rw [bind_apply, get_apply]
  simp only [bind_apply, get_apply, pure_apply]
  rcases readTokens (c.position + n + 1 - c.buffer.size) c with ⟨_ | _, _⟩ <;> rfl

/-- The cursor after the token that it stands at, if that is not the end of the text. -/
def pastToken (c : Cursor) (t : Token) : Cursor :=
  if t.isEnd then c else { c with position := c.position + 1 }

/-- Passing a token does not change the buffer. -/
@[simp] theorem buffer_pastToken (c : Cursor) (t : Token) : (c.pastToken t).buffer = c.buffer := by
  unfold pastToken
  split <;> rfl

/-- Passing a token does not change the lexer. -/
@[simp] theorem lexer_pastToken (c : Cursor) (t : Token) : (c.pastToken t).lexer = c.lexer := by
  unfold pastToken
  split <;> rfl

/-- Taking a token looks at it and passes it. -/
theorem advance_apply (c : Cursor) :
    advance c = match peekAhead 0 c with
      | (.ok t, c') => (.ok t, c'.pastToken t)
      | (.error e, c') => (.error e, c') := by
  unfold advance current
  rw [bind_apply]
  rcases peekAhead 0 c with ⟨_ | t, _⟩
  · rfl
  · cases hend : t.isEnd with
    | false => simp [bind_apply, modify_apply, pure_apply, pastToken, hend]
    | true => simp [pure_apply, pastToken, hend]

/-- The cursor with the token that it stands at split into `>` and what remains. -/
def withSplit (c : Cursor) (t : Token) (kind : TokenKind) : Cursor :=
  { c with
    buffer := replaceByParts c.buffer c.position t.greaterHead (t.greaterTail kind)
    splits := (c.position, t) :: c.splits }

/-- A `>` is split off if the current token is longer and starts with one. -/
theorem splitGreater_apply (c : Cursor) :
    splitGreater c = match peekAhead 0 c with
      | (.ok t, c') =>
        if t.kind = .greater then (.ok true, c')
        else t.kind.afterGreater?.elim (.ok false, c') fun kind => (.ok true, c'.withSplit t kind)
      | (.error e, c') => (.error e, c') := by
  unfold splitGreater current
  rw [bind_apply]
  rcases peekAhead 0 c with ⟨_ | t, _⟩
  · rfl
  · by_cases hkind : t.kind = .greater
    · simp [pure_apply, hkind]
    · simp only [hkind, if_false]
      cases t.kind.afterGreater? with
      | none => rfl
      | some kind => simp only [bind_apply, modify_apply, pure_apply, withSplit, Option.elim]

/-- A token other than the end of the text stands where it was looked for. -/
theorem getElem?_tokenAt {i : Nat} (hread : i < c.buffer.size ∨ c.reachedEnd = true)
    (hend : (c.tokenAt i).isEnd = false) : c.buffer[i]? = some (c.tokenAt i) := by
  unfold tokenAt at hend ⊢
  cases hfound : c.buffer[i]? with
  | some t => rfl
  | none =>
    exfalso
    rcases hread with hread | hread
    · exact absurd hread (by simpa using hfound)
    · unfold reachedEnd at hread
      cases hback : c.buffer.back? with
      | none => simp [hback] at hread
      | some last =>
        rw [hback] at hread
        rw [hfound, hback] at hend
        simp only [Option.any_some] at hread
        simp [hread] at hend

end Cursor

end JavaSyntax
