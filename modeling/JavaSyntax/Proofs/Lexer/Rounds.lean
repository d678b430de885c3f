import JavaSyntax.Proofs.Lexer.Positions
import JavaSyntax.Proofs.Lexer.Series

/-!
# The rounds of a call

A call of the lexer is a loop. In each round it looks at the next character, or at the end of the
text, and does what the automaton says: it takes the character, it ends the lexeme that it is
reading, or both, or it refuses to go on. The loop is written out here one round at a time, with
what a lexer remembers between two rounds, and it comes to the same as reading lexeme by lexeme.

A round that neither takes a character nor returns has ended a lexeme that is not empty and that
stands between tokens. The automaton is then in its initial state, where the next round takes a
character or returns. So there are at most two rounds for each character ahead, and two more.
-/

namespace JavaSyntax

/-! ### Entries for the end of the text -/

/-- An entry of the automaton for the end of the text. One that would take the end as a
character is made to fail. -/
def LexAction.atEnd (a : LexAction) : LexAction :=
  if a.takes then .fail .unexpectedEnd else a

/-- The automaton has no entry that would take the end, so none is changed. -/
theorem LexState.atEnd_next (s : LexState) : (s.next .endOfText).atEnd = s.next .endOfText := by
  rw [LexAction.atEnd, s.takes_next_endOfText]
  rfl

/-- No lexeme ends before its first character. -/
theorem LexState.first_ne_stop (c : CharClass) (kind : LexemeKind) : first c ≠ .stop kind := by
  intro h
  cases c <;> cases h

namespace Lexer

/-! ### A lexer between two rounds -/

/-- A lexer that may stand inside a lexeme. -/
structure Midway where
  /-- The lexer as it stood before the lexeme. -/
  lexer : Lexer
  /-- Where the automaton stands, unless it is in its initial state. -/
  state : Option LexState
  /-- What was taken of the lexeme, last first. -/
  taken : List Char
  /-- What was not taken yet. -/
  rest : List Char

namespace Midway

/-- What a round comes to: the call goes on, or it returns an answer. -/
inductive Round where
  | again (next : Midway)
  | returned (outcome : LexOutcome) (next : Midway)

/-- A lexer before a lexeme, with the automaton in its initial state. -/
def ofLexer (l : Lexer) : Midway := ⟨l, none, [], l.rest⟩

/-- The place up to which the text was taken. -/
def position (m : Midway) : Position := m.lexer.position.advanceChars m.taken.reverse

/-- What the automaton says to the next character, or to the end of the text. In its initial
state it has nothing to say to the end. -/
def action? (m : Midway) : Option LexAction :=
  match m.state, m.rest with
  | none, [] => none
  | none, c :: _ => some (LexState.first (.ofChar c))
  | some s, [] => some (s.next .endOfText).atEnd
  | some s, c :: _ => some (s.next (.ofChar c))

/-- Takes the next character, if there is one. -/
def bump (m : Midway) : Midway :=
  match m.rest with
  | [] => m
  | c :: rest => { m with taken := c :: m.taken, rest := rest }

/-- Ends the lexeme with what was taken, which puts the automaton back into its initial state.
The call goes on after something that stands between tokens. -/
def reduce (m : Midway) : LexemeKind → Round
  | .token kind =>
    let outcome := m.lexer.deliver kind m.taken.reverse m.rest
    .returned outcome (ofLexer outcome.lexer)
  | .affiliation style =>
    match m.lexer.keep style m.taken.reverse m.rest with
    | .error outcome => .returned outcome (ofLexer outcome.lexer)
    | .ok next => .again (ofLexer next)

/-- Refuses to go on. The automaton stays where it is. -/
def fail (m : Midway) (fault : LexFault) : Round :=
  let chars := m.taken.reverse
  let text := LexError.excerpt (chars ++ m.rest.head?.toList)
  .returned (m.lexer.refuse ⟨.ofLexFault fault, text, m.lexer.position.offset⟩
    (m.lexer.spanOf chars)) m

/-- One round of the loop. -/
def round (m : Midway) : Round :=
  match m.action? with
  | none => .returned m.lexer.finish { m with lexer := m.lexer.finish.lexer }
  | some (.shift s) => .again { m.bump with state := some s }
  | some (.take kind) => m.bump.reduce kind
  | some (.stop kind) => m.reduce kind
  | some (.fail fault) => m.fail fault

/-- What a call comes to if it returns within a number of rounds. -/
def callWithin : Nat → Midway → Option (LexOutcome × Midway)
  | 0, _ => none
  | n + 1, m =>
    match m.round with
    | .again next => callWithin n next
    | .returned outcome next => some (outcome, next)

/-- The lexer after one more round, be it the last one of its call or not. -/
def onward (m : Midway) : Midway :=
  match m.round with
  | .again next | .returned _ next => next

/-- The lexer after a number of rounds on a text, in as many calls as they take. -/
def afterRounds (text : String) (preferences : LexicalPreferences) : Nat → Midway
  | 0 => ofLexer (ofText text preferences)
  | n + 1 => (afterRounds text preferences n).onward

variable {text : String} {preferences : LexicalPreferences} {m next : Midway} {l : Lexer}
  {c : Char} {cs taken rest : List Char} {kind : LexemeKind} {n : Nat}

/-! ### What one round does -/

/-- Where a lexer can stand between two rounds: before a lexeme, or inside one of which something
was taken. Inside, reading on comes to what reading the lexeme from its start comes to. -/
inductive Stands : Midway → Prop
  | before (l : Lexer) : Stands (ofLexer l)
  | inside {l : Lexer} {c : Char} {cs taken rest : List Char} {s : LexState}
      (hrest : l.rest = c :: cs) (hscan : Scan.start c cs = Scan.run s taken rest)
      (hsplit : taken.reverse ++ rest = c :: cs) (htaken : taken ≠ []) :
      Stands ⟨l, some s, taken, rest⟩

/-- What is ahead of the lexer is what was taken and what is left. -/
theorem Stands.split (h : m.Stands) : m.taken.reverse ++ m.rest = m.lexer.rest := by
  cases h with
  | before => rfl
  | inside hrest _ hsplit _ => rw [hrest, hsplit]

/-- What a round does, seen from where it starts. -/
inductive Does (m : Midway) : Round → Prop
  /-- It takes a character, and the call goes on, inside the lexeme or after it. -/
  | takes {c : Char} {next : Midway} (hrest : m.rest = c :: next.rest)
      (hskips : Skips m.lexer next.lexer) (hstands : next.Stands) : Does m (.again next)
  /-- It keeps what was taken for the next token, and takes nothing. -/
  | keeps {style : AffiliationStyle} {l : Lexer} (hstate : m.state ≠ none) (htaken : m.taken ≠ [])
      (hkeep : m.lexer.keep style m.taken.reverse m.rest = .ok l) (hskips : Skips m.lexer l) :
      Does m (.again (ofLexer l))
  /-- It returns what reading on lexeme by lexeme comes to. -/
  | returns {next : Midway} (hlexer : next.lexer = m.lexer.lex.lexer) (hstands : next.Stands) :
      Does m (.returned m.lexer.lex next)

/-- A whole lexeme is returned or kept. -/
theorem reduce_cases (hrest : m.lexer.rest = c :: cs)
    (hscan : Scan.start c cs = .lexeme kind m.taken m.rest) :
    m.reduce kind = .returned m.lexer.lex (ofLexer m.lexer.lex.lexer) ∨
      ∃ style l, m.lexer.keep style m.taken.reverse m.rest = .ok l ∧ Skips m.lexer l ∧
        m.reduce kind = .again (ofLexer l) := by
  cases kind with
  | token kind =>
    left
    rw [lex_of_token hrest hscan]
    rfl
  | affiliation style =>
    cases hkeep : m.lexer.keep style m.taken.reverse m.rest with
    | error outcome =>
      left
      rw [lex_of_keep_error hrest hscan hkeep]
      simp only [reduce, hkeep]
    | ok l =>
      right
      exact ⟨style, l, hkeep, .keep hrest hscan hkeep (.refl l), by simp only [reduce, hkeep]⟩

/-- A lexeme that ends after the next character. -/
theorem does_reduce_bump (hrest : m.lexer.rest = c :: cs) {d : Char} (hd : m.rest = d :: rest)
    (hscan : Scan.start c cs = .lexeme kind (d :: m.taken) rest) :
    m.Does (m.bump.reduce kind) := by
  have hbump : m.bump = { m with taken := d :: m.taken, rest := rest } := by
    simp only [bump, hd]
  rw [hbump]
  rcases reduce_cases (m := { m with taken := d :: m.taken, rest := rest }) hrest hscan with
    hreturned | ⟨style, l, hkeep, hskips, hagain⟩
  · rw [hreturned]
    exact .returns rfl (.before _)
  · rw [hagain]
    refine .takes (c := d) ?_ hskips (.before l)
    rw [hd]
    exact congrArg (d :: ·) (rest_keep hkeep).symm

/-- A lexeme that ends before the next character, or at the end of the text. -/
theorem does_reduce (hrest : m.lexer.rest = c :: cs)
    (hscan : Scan.start c cs = .lexeme kind m.taken m.rest) (hstate : m.state ≠ none)
    (htaken : m.taken ≠ []) : m.Does (m.reduce kind) := by
  rcases reduce_cases hrest hscan with hreturned | ⟨style, l, hkeep, hskips, hagain⟩
  · rw [hreturned]
    exact .returns rfl (.before _)
  · rw [hagain]
    exact .keeps hstate htaken hkeep hskips

/-- A lexeme that cannot go on is refused. -/
theorem does_fail (h : m.Stands) (hrest : m.lexer.rest = c :: cs) {fault : LexFault}
    (hscan : Scan.start c cs = .fault fault m.taken m.rest.head?) : m.Does (m.fail fault) := by
  have hlex := lex_of_fault hrest hscan
  rw [fail, ← hlex]
  exact .returns (by rw [hlex]; rfl) h

/-- Before a lexeme the automaton takes its first character, unless it cannot start one or there
is none. -/
theorem does_before (l : Lexer) : (ofLexer l).Does (ofLexer l).round := by
  cases hrest : l.rest with
  | nil =>
    have hround : (ofLexer l).round =
        .returned l.finish { ofLexer l with lexer := l.finish.lexer } := by
      simp only [round, action?, ofLexer, hrest]
    rw [hround, ← lex_of_nil hrest]
    refine .returns rfl ?_
    rw [lex_of_nil hrest]
    exact .before l.finish.lexer
  | cons c cs =>
    have haction : (ofLexer l).action? = some (LexState.first (.ofChar c)) := by
      simp only [action?, ofLexer, hrest]
    rw [round, haction]
    cases hfirst : LexState.first (.ofChar c) with
    | shift s =>
      have hscan : Scan.start c cs = Scan.run s [c] cs := by simp only [Scan.start, hfirst]
      have hbump : (ofLexer l).bump = ⟨l, none, [c], cs⟩ := by
        simp only [bump, ofLexer, hrest]
      rw [hbump]
      exact .takes hrest (.refl l) (.inside hrest hscan rfl (List.cons_ne_nil c []))
    | take kind =>
      exact does_reduce_bump (m := ofLexer l) hrest hrest (by simp only [Scan.start, hfirst]; rfl)
    | stop kind => exact absurd hfirst (LexState.first_ne_stop _ kind)
    | fail fault =>
      refine does_fail (.before l) hrest ?_
      simp only [Scan.start, hfirst, ofLexer, hrest, List.head?_cons]

/-- Inside a lexeme, before a further character. -/
theorem does_inside {s : LexState} {d : Char} {ds : List Char}
    (h : Stands ⟨l, some s, taken, d :: ds⟩) :
    Does ⟨l, some s, taken, d :: ds⟩ (round ⟨l, some s, taken, d :: ds⟩) := by
  cases h with
  | @inside _ c cs _ _ _ hrest hscan hsplit htaken =>
    have haction : action? ⟨l, some s, taken, d :: ds⟩ = some (s.next (.ofChar d)) := rfl
    have hstate : some s ≠ none := Option.some_ne_none s
    rw [round, haction]
    cases hnext : s.next (.ofChar d) with
    | shift s' =>
      have hsplit' : (d :: taken).reverse ++ ds = c :: cs := by simpa using hsplit
      simp only [Scan.run, hnext] at hscan
      exact .takes (c := d) rfl (.refl l) (.inside hrest hscan hsplit' (List.cons_ne_nil d taken))
    | take kind =>
      simp only [Scan.run, hnext] at hscan
      exact does_reduce_bump (m := ⟨l, some s, taken, d :: ds⟩) hrest rfl hscan
    | stop kind =>
      simp only [Scan.run, hnext] at hscan
      exact does_reduce (m := ⟨l, some s, taken, d :: ds⟩) hrest hscan hstate htaken
    | fail fault =>
      have hstands := Stands.inside hrest hscan hsplit htaken
      simp only [Scan.run, hnext] at hscan
      exact does_fail hstands hrest hscan

/-- Inside a lexeme, at the end of the text. No entry of the automaton would take it. -/
theorem does_inside_atEnd {s : LexState} (h : Stands ⟨l, some s, taken, []⟩) :
    Does ⟨l, some s, taken, []⟩ (round ⟨l, some s, taken, []⟩) := by
  cases h with
  | @inside _ c cs _ _ _ hrest hscan hsplit htaken =>
    have haction : action? ⟨l, some s, taken, []⟩ = some (s.next .endOfText) :=
      congrArg some s.atEnd_next
    have hstate : some s ≠ none := Option.some_ne_none s
    have htakes := s.takes_next_endOfText
    rw [round, haction]
    cases hnext : s.next .endOfText with
    | shift | take =>
      rw [hnext] at htakes
      cases htakes
    | stop kind =>
      simp only [Scan.run, hnext] at hscan
      exact does_reduce (m := ⟨l, some s, taken, []⟩) hrest hscan hstate htaken
    | fail fault =>
      have hstands := Stands.inside hrest hscan hsplit htaken
      simp only [Scan.run, hnext] at hscan
      exact does_fail hstands hrest hscan

/-- What a round does wherever a lexer can stand. -/
theorem Stands.does (h : m.Stands) : m.Does m.round := by
  cases h with
  | before l => exact does_before l
  | @inside l c cs taken rest s hrest hscan hsplit htaken =>
    have hstands := Stands.inside hrest hscan hsplit htaken
    cases rest with
    | nil => exact does_inside_atEnd hstands
    | cons d ds => exact does_inside hstands

/-! ### How many rounds a call takes -/

/-- At most how many rounds are left of a call: two for each character ahead and one to end with,
and one more inside a lexeme, which may end where it is. -/
def roundsLeft (m : Midway) : Nat :=
  2 * m.rest.length + if m.state = none then 1 else 2

/-- Before a lexeme there are two rounds for each character, and one more. -/
theorem roundsLeft_ofLexer (l : Lexer) : (ofLexer l).roundsLeft = 2 * l.rest.length + 1 := rfl

/-- There is always a round to go. -/
theorem roundsLeft_pos (m : Midway) : 0 < m.roundsLeft := by
  unfold roundsLeft
  split <;> omega

/-- At most two rounds are left for each character, and two more. -/
theorem roundsLeft_le (m : Midway) : m.roundsLeft ≤ 2 * m.rest.length + 2 := by
  unfold roundsLeft
  split <;> omega

/-- A round after which the call goes on leaves less to do, and makes no difference to the
answer. -/
theorem Does.again (h : m.Does (.again next)) :
    next.Stands ∧ Skips m.lexer next.lexer ∧ next.roundsLeft < m.roundsLeft := by
  cases h with
  | @takes c _ hrest hskips hstands =>
    refine ⟨hstands, hskips, ?_⟩
    have hnext := next.roundsLeft_le
    have hm : 2 * m.rest.length + 1 ≤ m.roundsLeft := by
      unfold roundsLeft
      split <;> omega
    rw [hrest, List.length_cons] at hm
    omega
  | @keeps style l hstate _ hkeep hskips =>
    refine ⟨.before l, hskips, ?_⟩
    rw [roundsLeft_ofLexer, rest_keep hkeep, roundsLeft, if_neg hstate]
    omega

/-- A call returns before its rounds are used up, with what reading lexeme by lexeme comes to. -/
theorem Stands.callWithin (h : m.Stands) (hn : m.roundsLeft ≤ n) :
    ∃ next, m.callWithin n = some (m.lexer.lex, next) ∧ next.lexer = m.lexer.lex.lexer := by
  induction n generalizing m with
  | zero =>
    have hpos := m.roundsLeft_pos
    omega
  | succ n ih =>
    have hdoes := h.does
    rw [Midway.callWithin]
    generalize m.round = round at hdoes
    cases round with
    | again next =>
      obtain ⟨hstands, hskips, hlt⟩ := hdoes.again
      rw [hskips.lex_eq]
      exact ih hstands (by omega)
    | returned outcome next =>
      cases hdoes with
      | returns hlexer _ => exact ⟨next, rfl, hlexer⟩

/-! ### Every lexer that calls come to -/

/-- What holds of a lexer between any two rounds on a text. -/
structure Sound (text : String) (m : Midway) : Prop where
  stands : m.Stands
  inPlace : m.lexer.InPlace
  text_eq : m.lexer.text = text

/-- One more round keeps a lexer sound. -/
theorem Sound.onward (h : m.Sound text) : m.onward.Sound text := by
  have hdoes := h.stands.does
  unfold Midway.onward
  generalize m.round = round at hdoes
  cases round with
  | again next =>
    obtain ⟨hstands, hskips, -⟩ := hdoes.again
    exact ⟨hstands, h.inPlace.skips hskips, hskips.text_eq.trans h.text_eq⟩
  | returned outcome next =>
    cases hdoes with
    | returns hlexer hstands =>
      refine ⟨hstands, ?_, ?_⟩
      · rw [hlexer]
        exact h.inPlace.lex.1
      · rw [hlexer, text_lex, h.text_eq]

/-- After any number of rounds a lexer is sound. -/
theorem sound_afterRounds (text : String) (preferences : LexicalPreferences) (n : Nat) :
    (afterRounds text preferences n).Sound text := by
  induction n with
  | zero => exact ⟨.before _, inPlace_ofText text preferences, rfl⟩
  | succ n ih => exact ih.onward

/-- A call leaves a lexer that some more rounds come to. -/
theorem exists_afterRounds_of_callWithin {k : Nat} {outcome : LexOutcome}
    (h : (afterRounds text preferences n).callWithin k = some (outcome, next)) :
    ∃ n', next = afterRounds text preferences n' := by
  induction k generalizing n with
  | zero => cases h
  | succ k ih =>
    have honward : (afterRounds text preferences n).onward = afterRounds text preferences (n + 1) :=
      rfl
    rw [callWithin] at h
    unfold onward at honward
    generalize (afterRounds text preferences n).round = round at h honward
    cases round with
    | again m =>
      obtain rfl : m = afterRounds text preferences (n + 1) := honward
      exact ih h
    | returned outcome' m =>
      cases h
      exact ⟨n + 1, honward⟩

/-- The lexers between calls are among those between rounds. -/
theorem exists_afterRounds (text : String) (preferences : LexicalPreferences) (k : Nat) :
    ∃ n, (afterRounds text preferences n).lexer = (ofText text preferences).after k := by
  induction k with
  | zero => exact ⟨0, rfl⟩
  | succ k ih =>
    obtain ⟨n, hn⟩ := ih
    obtain ⟨next, hcall, hlexer⟩ :=
      (sound_afterRounds text preferences n).stands.callWithin (Nat.le_refl _)
    obtain ⟨n', rfl⟩ := exists_afterRounds_of_callWithin hcall
    refine ⟨n', ?_⟩
    rw [hlexer, hn]
    rfl

/-- A round that takes a character or returns. -/
def Advances (m : Midway) : Prop :=
  (∃ c next, m.rest = c :: next.rest ∧ m.round = .again next) ∨
    ∃ outcome next, m.round = .returned outcome next

/-- A round that does not advance keeps a lexeme, of which something was taken. -/
theorem Stands.advances_or_keeps (h : m.Stands) :
    m.Advances ∨ ∃ style l, m.taken ≠ [] ∧
      m.lexer.keep style m.taken.reverse m.rest = .ok l ∧ m.round = .again (ofLexer l) := by
  have hdoes := h.does
  unfold Advances
  generalize m.round = round at hdoes ⊢
  cases hdoes with
  | takes hrest _ _ => exact .inl (.inl ⟨_, _, hrest, rfl⟩)
  | @keeps style l _ htaken hkeep _ => exact .inr ⟨style, l, htaken, hkeep, rfl⟩
  | returns _ _ => exact .inl (.inr ⟨_, _, rfl⟩)

/-- Before a lexeme a round takes a character or returns. -/
theorem advances_ofLexer (l : Lexer) : (ofLexer l).Advances := by
  rcases (Stands.before l).advances_or_keeps with hadvances | ⟨_, _, htaken, _⟩
  · exact hadvances
  · exact absurd rfl htaken

/-- How a call goes on from a lexer midway through a text. -/
structure Terminates (text : String) (m : Midway) : Prop where
  /-- It returns within two rounds for each character ahead and two more, and it comes to what
  reading on lexeme by lexeme comes to. -/
  returns : ∃ next, m.callWithin (2 * m.rest.length + 2) = some (m.lexer.lex, next) ∧
    next.lexer = m.lexer.lex.lexer
  /-- The next round takes a character or returns, or it keeps a lexeme that is not empty, after
  which the automaton is in its initial state and the round then takes a character or returns. -/
  round : m.Advances ∨ ∃ style l, m.taken ≠ [] ∧
    m.lexer.keep style m.taken.reverse m.rest = .ok l ∧ m.round = .again (ofLexer l) ∧
    (ofLexer l).Advances
  /-- No empty lexeme is ended, be it a token or something between tokens. -/
  nonempty : ∀ kind, m.action? = some (.stop kind) → m.taken ≠ []
  /-- The end of the text is not taken. The automaton's own entry for it would not do so. -/
  atEnd : m.rest = [] → ∀ a, m.action? = some a →
    a.takes = false ∧ ∃ s, m.state = some s ∧ a = s.next .endOfText
  /-- What was not taken is what the text has from the lexer's place on. -/
  inText : ∃ read, text.toList = read ++ m.rest ∧ m.position.offset = byteLength read
  offset_le : m.position.offset ≤ text.utf8ByteSize

/-- Where the automaton ends a lexeme before the next character, something was taken. -/
theorem Stands.taken_ne_nil (h : m.Stands) (haction : m.action? = some (.stop kind)) :
    m.taken ≠ [] := by
  cases h with
  | before l =>
    cases hrest : l.rest with
    | nil =>
      simp only [action?, ofLexer, hrest] at haction
      cases haction
    | cons c cs =>
      simp only [action?, ofLexer, hrest] at haction
      exact absurd (Option.some.inj haction) (LexState.first_ne_stop _ kind)
  | inside _ _ _ htaken => exact htaken

/-- At the end of the text the automaton says what its entry for the end is, which takes nothing. -/
theorem takes_of_action? (hrest : m.rest = []) {a : LexAction} (haction : m.action? = some a) :
    a.takes = false ∧ ∃ s, m.state = some s ∧ a = s.next .endOfText := by
  rw [action?, hrest] at haction
  cases hstate : m.state with
  | none =>
    rw [hstate] at haction
    cases haction
  | some s =>
    rw [hstate] at haction
    cases haction
    rw [s.atEnd_next]
    exact ⟨s.takes_next_endOfText, s, rfl, rfl⟩

/-- A sound lexer stands in its text where it says. -/
theorem Sound.inText (h : m.Sound text) :
    ∃ read, text.toList = read ++ m.rest ∧ m.position.offset = byteLength read := by
  obtain ⟨read, htext, -, hposition⟩ := h.inPlace.leaves
  have hstart : Position.start.offset = 0 := rfl
  refine ⟨read ++ m.taken.reverse, ?_, ?_⟩
  · rw [← h.text_eq, htext, ← h.stands.split, List.append_assoc]
  · rw [position, Position.offset_advanceChars, hposition, Position.offset_advanceChars, hstart,
      Nat.zero_add, byteLength_append]

/-- From a sound lexer every call returns within its rounds. -/
theorem Sound.terminates (h : m.Sound text) : m.Terminates text where
  returns := h.stands.callWithin m.roundsLeft_le
  round := by
    rcases h.stands.advances_or_keeps with hadvances | ⟨style, l, htaken, hkeep, hround⟩
    · exact .inl hadvances
    · exact .inr ⟨style, l, htaken, hkeep, hround, advances_ofLexer l⟩
  nonempty _ := h.stands.taken_ne_nil
  atEnd hrest _ := takes_of_action? hrest
  inText := h.inText
  offset_le := by
    obtain ⟨read, htext, hoffset⟩ := h.inText
    rw [hoffset, ← String.ofList_toList (s := text), utf8ByteSize_ofList, htext, byteLength_append]
    omega

/-- Every call returns, wherever the lexer stands between two rounds on a text, and so from every
lexer that calls on the text come to. Nowhere in the automaton is the end of the text taken. -/
theorem calls_return_within (text : String) (preferences : LexicalPreferences) :
    (∀ n, (afterRounds text preferences n).Terminates text) ∧
      (∀ k, ∃ n, (afterRounds text preferences n).lexer = (ofText text preferences).after k) ∧
      ∀ s : LexState, (s.next .endOfText).takes = false :=
  ⟨fun n => (sound_afterRounds text preferences n).terminates,
    exists_afterRounds text preferences, LexState.takes_next_endOfText⟩

end Midway

end Lexer

end JavaSyntax
