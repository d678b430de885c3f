import JavaSyntax.Proofs.Syntax.Progress
import JavaSyntax.Proofs.Tree.Likeness

/-!
# Parsers that run side by side

Started with cursors that match, two parsers echo each other if they come to results that are
alike with cursors that match again, or fail with errors that are built alike from tokens that
match. The two parsers are instances of the same code and differ in the values that they hold,
so they are related step by step. Loops need a word of their own, because their fuel is
measured by the text: as every step that goes round passes a token, no loop runs out of it.
-/

set_option synthInstance.maxSize 4096

namespace JavaSyntax

open JavaSyntax.Parser Work

namespace Mirror

/-! ### States, errors and outcomes that match -/

/-- Two states of a parse with cursors that match. -/
structure Facing (M : Mirror) (s t : ParserState) : Prop where
  cursor : M.Same s.cursor t.cursor
  contexts_eq : t.contexts = s.contexts
  depth_eq : t.depth = s.depth
  lambdas_eq : t.lambdas = s.lambdas

/-- Two errors of one sort that are raised at tokens that match. A token at which a rule is
broken is not the end of the text. -/
inductive Fault (M : Mirror) : SyntaxError → SyntaxError → Prop
  | unexpected (expected : String) {t u : Token} (h : M.Match t u) :
      Fault M (.unexpected expected t) (.unexpected expected u)
  | restricted {t u : Token} (h : M.Match t u) : Fault M (.restricted t) (.restricted u)
  | broken (rule : GrammarRule) {t u : Token} (h : M.Match t u) (hopen : t.isEnd = false) :
      Fault M (.broken rule t) (.broken rule u)
  | tooDeep {t u : Token} (h : M.Match t u) :
      Fault M (.tooDeep t.display t.span) (.tooDeep u.display u.span)
  | lexical {e f : LexError} (h : M.Refusal e f) : Fault M (.lexical e) (.lexical f)

/-- Two runs that have not gone back before a position come to the same end. -/
inductive Ends (M : Mirror) (n : Nat) {α : Type} [M.Likeness α] :
    Except SyntaxError α × ParserState → Except SyntaxError α × ParserState → Prop
  | ok {a b : α} {s t : ParserState} (hlike : M.Like a b) (hfacing : M.Facing s t)
      (hn : n ≤ s.cursor.position) : Ends M n (.ok a, s) (.ok b, t)
  | error {e f : SyntaxError} {s t : ParserState} (hfault : M.Fault e f) :
      Ends M n (.error e, s) (.error f, t)

/-- Two parsers that come to the same end if they start with cursors that match, at a position
or behind it. -/
class Echoes (M : Mirror) (n : Nat) {α : Type} [M.Likeness α] (p q : Parser α) : Prop where
  ends : ∀ {s t : ParserState}, M.Facing s t → n ≤ s.cursor.position → M.Ends n (p s) (q t)

/-- Steps of a loop are alike if they go on alike or end alike. -/
instance {M : Mirror} {α β : Type} [M.Likeness α] [M.Likeness β] : M.Likeness (Step α β) where
  Like
    | .again a, .again b => M.Like a b
    | .done a, .done b => M.Like a b
    | _, _ => False

variable {M : Mirror} {n : Nat} {α β γ : Type} [M.Likeness α] [M.Likeness β] [M.Likeness γ]

instance : M.Alike (@Step.again α β) Step.again := ⟨fun _ _ h => h⟩

instance : M.Alike (@Step.done α β) Step.done := ⟨fun _ _ h => h⟩

instance [hα : M.Plain α] [hβ : M.Plain β] : M.Plain (Step α β) where
  like_iff {x y} := by
    cases x <;> cases y
    · rw [Step.again.injEq, ← hα.like_iff]
      rfl
    · exact ⟨False.elim, nofun⟩
    · exact ⟨False.elim, nofun⟩
    · rw [Step.done.injEq, ← hβ.like_iff]
      rfl

/-- Cursors that match stand at the same place. -/
theorem Facing.position_eq {s t : ParserState} (h : M.Facing s t) :
    t.cursor.position = s.cursor.position := M.position_eq h.cursor

/-- States match if their cursors do. -/
theorem Facing.withCursor {s t : ParserState} {c d : Cursor} (h : M.Facing s t)
    (hcursor : M.Same c d) : M.Facing { s with cursor := c } { t with cursor := d } :=
  ⟨hcursor, h.contexts_eq, h.depth_eq, h.lambdas_eq⟩

/-- The rule for arrows is changed on both sides. -/
theorem Facing.withLambdas {s t : ParserState} (h : M.Facing s t) {a b : Bool} (hab : b = a) :
    M.Facing { s with lambdas := a } { t with lambdas := b } :=
  ⟨h.cursor, h.contexts_eq, h.depth_eq, hab⟩

/-- A name is put on both stacks. -/
theorem Facing.pushContext {s t : ParserState} (h : M.Facing s t) (context : String) :
    M.Facing (s.pushContext context) (t.pushContext context) := by
  have hcontexts : (context :: t.contexts).take Limits.maxContextStackDepth =
      (context :: s.contexts).take Limits.maxContextStackDepth := by rw [h.contexts_eq]
  have hlength : t.contexts.length = s.contexts.length := congrArg List.length h.contexts_eq
  unfold ParserState.pushContext
  rw [hlength]
  dsimp only
  split
  · exact ⟨M.same_withJournal h.cursor _ _, hcontexts, h.depth_eq, h.lambdas_eq⟩
  · exact ⟨h.cursor, hcontexts, h.depth_eq, h.lambdas_eq⟩

/-- A production is opened on both sides. -/
theorem Facing.entered {s t : ParserState} (h : M.Facing s t) (context : String) :
    M.Facing (Parser.entered context s) (Parser.entered context t) :=
  have hdeeper : M.Facing { s with depth := s.depth + 1 } { t with depth := t.depth + 1 } :=
    ⟨h.cursor, h.contexts_eq, congrArg (· + 1) h.depth_eq, h.lambdas_eq⟩
  hdeeper.pushContext context

/-- A production is closed on both sides. -/
theorem Facing.leave {s t : ParserState} (h : M.Facing s t) : M.Facing s.leave t.leave :=
  ⟨h.cursor, congrArg List.tail h.contexts_eq, congrArg (· - 1) h.depth_eq, h.lambdas_eq⟩

/-- Runs that have not gone back before a place have not gone back before an earlier one. -/
theorem Ends.mono {m : Nat} {x y : Except SyntaxError α × ParserState} (h : M.Ends m x y)
    (hn : n ≤ m) : M.Ends n x y := by
  cases h with
  | ok hlike hfacing hm => exact .ok hlike hfacing (Nat.le_trans hn hm)
  | error hfault => exact .error hfault

/-- The moves of the cursor keep the rest of the state. -/
theorem ends_read {x y : Reading α} {s t : ParserState} (hst : M.Facing s t)
    (h : Meets M.Refusal M.Like M.Same (x s.cursor) (y t.cursor))
    (hn : ∀ c a, x s.cursor = (.ok a, c) → n ≤ c.position) : M.Ends n (read x s) (read y t) := by
  rw [read_apply, read_apply]
  generalize x s.cursor = first at h hn
  generalize y t.cursor = second at h
  cases h with
  | ok hmatch hsame => exact .ok hmatch (hst.withCursor hsame) (hn _ _ rfl)
  | refused hrefusal => exact .error (.lexical hrefusal)

namespace Echoes

variable {p q p' q' : Parser α} {f g : α → Parser β}

/-! ### Results and sequences -/

instance (a b : α) [h : M.Alike a b] : M.Echoes n (Pure.pure a : Parser α) (Pure.pure b) where
  ends hst hn := .ok h.like hst hn

/-- Two runs go on where two others have ended, unless those failed. -/
theorem ends_bind {s t : ParserState} (hends : M.Ends n (p s) (q t))
    (hf : ∀ {a b : α} {s' t' : ParserState}, p s = (.ok a, s') → q t = (.ok b, t') →
      M.Like a b → M.Facing s' t' → n ≤ s'.cursor.position → M.Ends n (f a s') (g b t')) :
    M.Ends n ((p >>= f) s) ((q >>= g) t) := by
  rw [bind_apply, bind_apply]
  generalize p s = first at hends hf
  generalize q t = second at hends hf
  cases hends with
  | ok hlike hfacing hn' => exact hf rfl rfl hlike hfacing hn'
  | error hfault => exact .error hfault

/-- Runs that echo each other step by step echo each other. -/
theorem bind (hp : M.Echoes n p q)
    (hf : ∀ {a b : α} {s t : ParserState}, M.Like a b → M.Facing s t → n ≤ s.cursor.position →
      M.Ends n (f a s) (g b t)) : M.Echoes n (p >>= f) (q >>= g) where
  ends hst hn := ends_bind (hp.ends hst hn) fun _ _ => hf

/-- Steps that echo each other may follow each other, with results that are alike. -/
theorem seq (hp : M.Echoes n p q) (hf : ∀ r : M.Pair α, M.Echoes n (f r.left) (g r.right)) :
    M.Echoes n (p >>= f) (q >>= g) :=
  bind hp fun hlike hst hn => (hf ⟨_, _, hlike⟩).ends hst hn

/-- Where results that are alike are the same, one result is enough to go on with. -/
theorem seqPlain [hα : M.Plain α] (hp : M.Echoes n p q) (hf : ∀ a, M.Echoes n (f a) (g a)) :
    M.Echoes n (p >>= f) (q >>= g) := by
  refine bind hp fun hlike hst hn => ?_
  rw [hα.like_iff.mp hlike]
  exact (hf _).ends hst hn

instance [hp : M.Echoes n p q] [hf : ∀ r : M.Pair α, M.Echoes n (f r.left) (g r.right)] :
    M.Echoes n (p >>= f) (q >>= g) := seq hp hf

/-- Results may come in pairs. -/
theorem seqPair {f g : α × γ → Parser β} {p q : Parser (α × γ)} (hp : M.Echoes n p q)
    (hf : ∀ (r : M.Pair α) (r' : M.Pair γ),
      M.Echoes n (f (r.left, r'.left)) (g (r.right, r'.right))) :
    M.Echoes n (p >>= f) (q >>= g) :=
  bind hp fun {x y} _ _ hlike hst hn => (hf ⟨x.1, y.1, hlike.1⟩ ⟨x.2, y.2, hlike.2⟩).ends hst hn

instance {f g : α × γ → Parser β} {p q : Parser (α × γ)} [hp : M.Echoes n p q]
    [hf : ∀ (r : M.Pair α) (r' : M.Pair γ),
      M.Echoes n (f (r.left, r'.left)) (g (r.right, r'.right))] :
    M.Echoes n (p >>= f) (q >>= g) := seqPair hp hf

/-- What is plain comes to both sides as the same value. -/
instance [M.Plain α] [hp : M.Echoes n p q] [hf : ∀ a, M.Echoes n (f a) (g a)] :
    M.Echoes n (p >>= f) (q >>= g) := seqPlain hp hf

instance {f g : α → β} [hp : M.Echoes n p q] [hf : M.Alike f g] :
    M.Echoes n (f <$> p) (g <$> q) := by
  rw [map_eq_pure_bind, map_eq_pure_bind]
  exact bind hp fun hlike hst hn => .ok (hf.like hlike) hst hn

/-- Both take the same way if they ask alike. -/
theorem ite {c d : Prop} [Decidable c] [Decidable d] (hcd : M.Alike c d)
    (hp : c → M.Echoes n p q) (hp' : ¬ c → M.Echoes n p' q') :
    M.Echoes n (if c then p else p') (if d then q else q') := by
  have heq : c = d := hcd.eq
  by_cases hc : c
  · rw [if_pos hc, if_pos (heq ▸ hc)]
    exact hp hc
  · rw [if_neg hc, if_neg (heq ▸ hc)]
    exact hp' hc

instance {c d : Prop} [Decidable c] [Decidable d] [hcd : M.Alike c d] [hp : M.Echoes n p q]
    [hp' : M.Echoes n p' q'] : M.Echoes n (if c then p else p') (if d then q else q') :=
  ite hcd (fun _ => hp) fun _ => hp'

omit [M.Likeness α] in
/-- Errors that match end both runs. -/
theorem throwingThen {e e' : SyntaxError} (h : M.Fault e e') :
    M.Echoes n ((throw e : Parser α) >>= f) (throw e' >>= g) := ⟨fun _ _ => .error h⟩

/-! ### Looking and taking -/

instance (k : Nat) : M.Echoes n (peek k) (peek k) where
  ends {s t} hst hn := by
    refine ends_read hst (M.peekAhead_meets hst.cursor k) ?_
    intro c a hpeek
    rw [(((M.within hst.cursor).1.settled.peekAhead k).2 _ _ hpeek).1]
    exact hn

instance : M.Echoes n advance advance where
  ends {s t} hst hn := by
    refine ends_read hst (M.advance_meets hst.cursor) ?_
    intro c a hadvance
    have hcourse := (M.within hst.cursor).1.settled.advance.course
    rw [hadvance] at hcourse
    exact Nat.le_trans hn hcourse.le_position

/-- A `>` that starts a token is taken by both or by neither. -/
instance [hp : M.Echoes n p q] [hp' : M.Echoes n p' q'] :
    M.Echoes n (splitGreater >>= fun found => if found = true then advance >>= fun _ => p else p')
      (splitGreater >>= fun found => if found = true then advance >>= fun _ => q else q') where
  ends {s t} hst hn := by
    rw [splitGreater_bind_eq, splitGreater_bind_eq, bind_apply, bind_apply, closing?_eq,
      read_apply, read_apply]
    have hmeets := M.closing?_meets hst.cursor
    have hcourse := (M.within hst.cursor).1.settled.closing?.course
    generalize s.cursor.closing? = first at hmeets hcourse
    generalize t.cursor.closing? = second at hmeets
    cases hmeets with
    | @ok a b c d hmatch hsame =>
      have hfacing := hst.withCursor hsame
      have hle : n ≤ c.position := Nat.le_trans hn hcourse.le_position
      cases a <;> cases b <;>
        simp only [Option.isSome_none, Option.isSome_some, reduceCtorEq] at hmatch
      · exact hp'.ends hfacing hle
      · exact hp.ends hfacing hle
    | refused hrefusal => exact .error (.lexical hrefusal)

/-- What comes after a question, if "yes" means that a token comes next. -/
theorem sighting {p : Parser Bool} [hsights : Sights p] (hp : M.Echoes n p p) {q q' r r' : Parser α}
    (hq : ∀ {s t : ParserState}, M.Facing s t → s.cursor.Open → n ≤ s.cursor.position →
      M.Ends n (q s) (q' t)) (hr : M.Echoes n r r') :
    M.Echoes n (p >>= fun found => if found = true then q else r)
      (p >>= fun found => if found = true then q' else r') where
  ends hst hn := by
    refine ends_bind (hp.ends hst hn) fun {found found'} _ _ hrun _ hlike hst' hn' => ?_
    obtain rfl : found = found' := hlike
    cases found with
    | false => exact hr.ends hst' hn'
    | true => exact hq hst' (hsights.sights (M.within hst.cursor).1.settled hrun).2.2 hn'

omit [M.Likeness α] in
/-- A rule that is broken at a token which comes next. -/
theorem ends_broken (rule : GrammarRule) {s t : ParserState} (hst : M.Facing s t)
    (hopen : s.cursor.Open) (hn : n ≤ s.cursor.position) :
    M.Ends n ((peek 0 >>= fun token => (throw (.broken rule token) : Parser α) >>= f) s)
      ((peek 0 >>= fun token => (throw (.broken rule token) : Parser α) >>= g) t) := by
  have hpeek : M.Echoes n (peek 0) (peek 0) := inferInstance
  refine ends_bind (hpeek.ends hst hn) fun hrun _ hlike _ _ => .error (.broken rule hlike ?_)
  obtain ⟨u, hu, hend⟩ := hopen
  rw [peek, read_apply, Cursor.peekAhead_zero hu] at hrun
  cases hrun
  exact hend

instance (expected : String) :
    M.Echoes n (unexpected expected : Parser α) (unexpected expected) := by
  unfold unexpected
  exact bind (α := Token) inferInstance fun hlike hst hn => .error (.unexpected expected hlike)

instance : M.Echoes n (refuseDepth : Parser α) refuseDepth := by
  unfold refuseDepth
  exact bind (α := Token) inferInstance fun hlike hst hn => .error (.tooDeep hlike)

/-! ### Positions, nodes and the state around -/

/-- A parser may remember where it stands. -/
theorem marking {f g : Nat → Parser α} (hf : ∀ k, M.Echoes k (f k) (g k)) :
    M.Echoes n (position >>= f) (position >>= g) where
  ends hst hn := by
    rw [position_bind_apply, position_bind_apply, hst.position_eq]
    exact ((hf _).ends hst (Nat.le_refl _)).mono hn

instance {f g : Nat → Parser α} [hf : ∀ k, M.Echoes k (f k) (g k)] :
    M.Echoes n (position >>= f) (position >>= g) := marking hf

instance : M.Echoes n (restore n) (restore n) where
  ends hst hn := .ok rfl (hst.withCursor (M.same_restore hst.cursor hn)) (Nat.le_refl n)

instance {f : Form} (start stop : Nat) (tree tree' : Tree f) [h : M.Alike tree tree'] :
    M.Echoes n (node start tree) (node stop tree') where
  ends hst hn := by
    rw [node_apply, node_apply]
    exact .ok (congrArg (Tree.located · .nowhere "") h.like) hst hn

instance (context : String) [hp : M.Echoes n p q] :
    M.Echoes n (guarded context p) (guarded context q) where
  ends {s t} hst hn := by
    rw [guarded_apply, guarded_apply, hst.depth_eq]
    split
    · have hpeek : M.Echoes n (peek 0) (peek 0) := inferInstance
      have hends := hpeek.ends hst hn
      generalize peek 0 s = first at hends
      generalize peek 0 t = second at hends
      cases hends with
      | ok hlike => exact .error (.tooDeep hlike)
      | error hfault => exact .error hfault
    · obtain ⟨-, hn'⟩ := settled_pushContext (m := .marked n) (s := { s with depth := s.depth + 1 })
        context (M.within hst.cursor).1.settled hn
      have hends := hp.ends (hst.entered context) hn'
      generalize p (entered context s) = first at hends
      generalize q (entered context t) = second at hends
      cases hends with
      | ok hlike hfacing hn' => exact .ok hlike hfacing.leave hn'
      | error hfault => exact .error hfault

instance (allowed : Bool) [hp : M.Echoes n p q] :
    M.Echoes n (withLambdas allowed p) (withLambdas allowed q) where
  ends {s t} hst hn := by
    rw [withLambdas_apply, withLambdas_apply]
    have hends := hp.ends (s := { s with lambdas := allowed }) (t := { t with lambdas := allowed })
      (hst.withLambdas rfl) hn
    generalize p { s with lambdas := allowed } = first at hends
    generalize q { t with lambdas := allowed } = second at hends
    cases hends with
    | ok hlike hfacing hn' => exact .ok hlike (hfacing.withLambdas hst.lambdas_eq) hn'
    | error hfault => exact .error hfault

/-! ### Repetition -/

section Repetition

variable {step : α → Parser (Step α β)}

/-- Neither of two loops runs out of fuel if each has more than the text has bytes left, and a
step that goes round passes a token. -/
theorem ends_loopFor (hstep : ∀ k (r : M.Pair α), M.Echoes k (step r.left) (step r.right))
    (hstrides : ∀ k a, Strides k Step.IsAgain (step a)) {i j : Nat} {a b : α} {s t : ParserState}
    (hab : M.Like a b) (hst : M.Facing s t) (hn : n ≤ s.cursor.position)
    (hi : M.left.utf8ByteSize < s.cursor.position + i)
    (hj : M.right.utf8ByteSize < t.cursor.position + j) :
    M.Ends n (loopFor step i a s) (loopFor step j b t) := by
  induction i generalizing j a b s t with
  | zero =>
    have hle := (M.within hst.cursor).1.position_le
    omega
  | succ i ih =>
    cases j with
    | zero =>
      have hle := (M.within hst.cursor).2.position_le
      omega
    | succ j =>
      have hsettled := M.within hst.cursor
      have hends := (hstep s.cursor.position ⟨a, b, hab⟩).ends hst (Nat.le_refl _)
      have hmoves {x s'} (h : step a s = (.ok x, s')) :=
        (hstrides s.cursor.position a).strides hsettled.1.settled (Nat.le_refl _) h
      have hmoves' {y t'} (h : step b t = (.ok y, t')) :=
        (hstrides t.cursor.position b).strides hsettled.2.settled (Nat.le_refl _) h
      rw [loopFor, loopFor, bind_apply, bind_apply]
      generalize step a s = first at hends hmoves
      generalize step b t = second at hends hmoves'
      cases hends with
      | error hfault => exact .error hfault
      | @ok x y s' t' hlike hfacing hle =>
        cases x with
        | again a' =>
          cases y with
          | done => exact hlike.elim
          | again b' =>
            have hpassed := (hmoves rfl).2 trivial
            have hpassed' := (hmoves' rfl).2 trivial
            exact ih hlike hfacing (by omega) (by omega) (by omega)
        | done a' =>
          cases y with
          | again => exact hlike.elim
          | done b' => exact .ok hlike hfacing (Nat.le_trans hn hle)

/-- Loops with steps that echo each other do so too, since neither runs out of fuel. -/
theorem looping (hstep : ∀ k (r : M.Pair α), M.Echoes k (step r.left) (step r.right))
    (hstrides : ∀ k a, Strides k Step.IsAgain (step a)) {a b : α} (hab : M.Like a b) :
    M.Echoes n (loop step a) (loop step b) where
  ends {s t} hst hn := by
    have hsettled := M.within hst.cursor
    have hfuel : M.left.utf8ByteSize < s.cursor.position + loopBound s := by
      rw [loopBound, hsettled.1.text_eq]
      omega
    have hfuel' : M.right.utf8ByteSize < t.cursor.position + loopBound t := by
      rw [loopBound, hsettled.2.text_eq]
      omega
    exact ends_loopFor hstep hstrides hab hst hn hfuel hfuel'

instance [hstep : ∀ k (r : M.Pair α), M.Echoes k (step r.left) (step r.right)]
    [hstrides : ∀ k a, Strides k Step.IsAgain (step a)] (a b : α) [hab : M.Alike a b] :
    M.Echoes n (loop step a) (loop step b) := looping hstep hstrides hab.like

/-! ### Questions and demands -/

instance (k : Nat) : M.Echoes n (peekKind k) (peekKind k) := by
  unfold peekKind
  infer_instance

instance : M.Echoes n currentKind currentKind := by unfold currentKind; infer_instance

instance (kind : TokenKind) : M.Echoes n (check kind) (check kind) := by
  unfold check
  infer_instance

instance (keyword : Keyword) : M.Echoes n (checkKeyword keyword) (checkKeyword keyword) := by
  unfold checkKeyword
  infer_instance

instance (k : Nat) (word : String) : M.Echoes n (peekIsWord k word) (peekIsWord k word) := by
  unfold peekIsWord
  infer_instance

instance (word : String) : M.Echoes n (checkWord word) (checkWord word) := by
  unfold checkWord
  infer_instance

instance (kind : TokenKind) : M.Echoes n (eat kind) (eat kind) := by unfold eat; infer_instance

instance (keyword : Keyword) : M.Echoes n (eatKeyword keyword) (eatKeyword keyword) := by
  unfold eatKeyword
  infer_instance

instance (word : String) : M.Echoes n (eatWord word) (eatWord word) := by
  unfold eatWord
  infer_instance

instance (kind : TokenKind) : M.Echoes n (expect kind) (expect kind) := by
  unfold expect
  infer_instance

instance (keyword : Keyword) : M.Echoes n (expectKeyword keyword) (expectKeyword keyword) := by
  unfold expectKeyword
  infer_instance

/-- What comes after a demanded token may rely on it that it is not the end of the text. -/
theorem demanding (kind : TokenKind) [kind.Proper] {f g : Token → Parser β}
    (hf : ∀ r : M.Pair Token, r.left.isEnd = false → M.Echoes n (f r.left) (g r.right)) :
    M.Echoes n (expect kind >>= f) (expect kind >>= g) where
  ends {s t} hst hn := by
    have hexpect : M.Echoes n (expect kind) (expect kind) := inferInstance
    refine ends_bind (hexpect.ends hst hn) fun {a b _ _} hrun _ hlike hst' hn' => ?_
    exact (hf ⟨a, b, hlike⟩ (isEnd_of_expect (M.within hst.cursor).1.settled hrun)).ends hst' hn'

instance : M.Echoes n expectIdentifier expectIdentifier := by
  unfold expectIdentifier
  infer_instance

instance (word : String) : M.Echoes n (expectWord word) (expectWord word) := by
  unfold expectWord
  infer_instance

instance : M.Echoes n expectEnd expectEnd := by unfold expectEnd; infer_instance

instance : M.Echoes n expectTypeIdentifier expectTypeIdentifier := by
  unfold expectTypeIdentifier
  refine seq inferInstance fun r => ite inferInstance (fun _ => throwingThen (.restricted r.like))
    fun _ => ?_
  infer_instance

/-! ### Loops of the grammar -/

section Loops

variable {condition : Parser Bool} {item : Parser α}

instance [hc : ∀ k, M.Echoes k condition condition] [hi : ∀ k, M.Echoes k item item]
    [∀ k (items : List α), Strides k Step.IsAgain (condition >>= fun found =>
      if found = true then item >>= fun x => Pure.pure (Step.again (x :: items))
      else Pure.pure (Step.done items.reverse))] :
    M.Echoes n (manyWhile condition item) (manyWhile condition item) := by
  unfold manyWhile
  infer_instance

instance (kind : TokenKind) [hi : ∀ k, M.Echoes k item item] [∀ k, Passes k item] :
    M.Echoes n (manyUntil kind item) (manyUntil kind item) := by
  unfold manyUntil
  infer_instance

instance {item : Parser (Option α)} [hi : ∀ k, M.Echoes k item item]
    [hstrides : ∀ k, Strides k (·.isSome = true) item] :
    M.Echoes n (many item) (many item) := by
  have hstep (k : Nat) (r : M.Pair (List α)) : M.Echoes k
      (item >>= fun
        | some x => Pure.pure (Step.again (x :: r.left))
        | none => Pure.pure (Step.done r.left.reverse))
      (item >>= fun
        | some x => Pure.pure (Step.again (x :: r.right))
        | none => Pure.pure (Step.done r.right.reverse)) := by
    refine bind (hi k) fun hlike hst hn => ?_
    cases hlike with
    | some h => exact .ok (.cons h r.like) hst hn
    | none => exact .ok (List.rel_reverse r.like) hst hn
  have hpasses (k : Nat) (items : List α) : Strides k Step.IsAgain
      (item >>= fun
        | some x => Pure.pure (Step.again (x :: items))
        | none => Pure.pure (Step.done items.reverse)) :=
    .found (hstrides k) (fun _ => inferInstance) inferInstance
  unfold many
  infer_instance

instance (kind : TokenKind) [kind.Proper] [hi : ∀ k, M.Echoes k item item] [∀ k, Onward k item] :
    M.Echoes n (separatedBy kind item) (separatedBy kind item) := by
  unfold separatedBy
  infer_instance

instance (kind : TokenKind) [hi : ∀ k, M.Echoes k item item] [∀ k, Onward k item] :
    M.Echoes n (trailingCommas kind item) (trailingCommas kind item) := by
  unfold trailingCommas
  infer_instance

instance (kind : TokenKind) [hi : M.Echoes n item item] :
    M.Echoes n (after? kind item) (after? kind item) := by
  unfold after?
  infer_instance

instance (kind : TokenKind) [hi : M.Echoes n item item] :
    M.Echoes n (at? kind item) (at? kind item) := by
  unfold at?
  infer_instance

end Loops

end Repetition

end Echoes

end Mirror

end JavaSyntax
