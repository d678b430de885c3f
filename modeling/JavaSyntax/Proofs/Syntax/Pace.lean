import JavaSyntax.Proofs.Syntax.Progress

/-!
# Lookaheads make progress

A lookahead passes tokens, too, and each of its loops passes one whenever it goes round. Only
where it stands inside a token that has several `>` does it move without passing one, so the
tokens that a loop relies on are those that no other token has as a part.
-/

set_option synthInstance.maxSize 4096

namespace JavaSyntax

open JavaSyntax.Parser Work

/-- A kind of tokens that are not the end of the text and not a part of another token. -/
class TokenKind.Whole (kind : TokenKind) : Prop extends kind.Proper where
  ne_greater : kind ≠ .greater

namespace TokenKind

instance (keyword : Keyword) : Whole (.keyword keyword) := ⟨by rintro ⟨⟩⟩

instance : Whole .at := ⟨by decide⟩

instance : Whole .dot := ⟨by decide⟩

instance : Whole .comma := ⟨by decide⟩

instance : Whole .amp := ⟨by decide⟩

instance : Whole .leftParen := ⟨by decide⟩

instance : Whole .leftBracket := ⟨by decide⟩

end TokenKind

/-- A lookahead that does not go back before a position, and ends behind it if its answer is of
a sort. -/
class Paces (n : Nat) {α : Type} (P : α → Prop) (w : Lookahead α) : Prop where
  strides : ∀ σ, Strides n (fun r : α × LookaheadState => P r.1) (w σ)

/-- A lookahead that moves on like this if it starts at a token, and not inside of one. -/
class PacesOpen (n : Nat) {α : Type} (P : α → Prop) (w : Lookahead α) : Prop where
  strides : ∀ σ : LookaheadState, σ.pending = 0 →
    StridesOpen n (fun r : α × LookaheadState => P r.1) (w σ)

/-- A question that is answered with "yes" only at a token, and does not move. -/
class Spots (w : Lookahead Bool) : Prop where
  spots : ∀ {σ σ' : LookaheadState} {s s' : ParserState}, s.cursor.Settled →
    w σ s = (.ok (true, σ'), s') →
      s'.cursor.Settled ∧ s'.cursor.position = s.cursor.position ∧ s'.cursor.Open ∧ σ'.pending = 0

/-- A look at tokens further on, which leaves everything as it is. -/
class Glances {α : Type} (w : Lookahead α) : Prop where
  keeps : ∀ σ, Keeps (w σ)
  state_eq : ∀ {σ σ' : LookaheadState} {s s' : ParserState} {a : α},
    w σ s = (.ok (a, σ'), s') → σ' = σ

namespace Lookahead

/-- A sequence of lookaheads, started from a state. -/
theorem bind_eq {α β : Type} (w : Lookahead α) (f : α → Lookahead β) (σ : LookaheadState) :
    (w >>= f) σ = w σ >>= fun r => f r.1 r.2 := rfl

/-- A lookahead that asks for the position goes on with the index of the cursor. -/
theorem position_bind_eq {α : Type} (f : Nat → Lookahead α) (σ : LookaheadState) :
    ((liftM Parser.position : Lookahead Nat) >>= f) σ = Parser.position >>= fun n => f n σ := by
  change ((Parser.position >>= fun n => pure (n, σ)) >>= fun r => f r.1 r.2) = _
  rw [bind_assoc]
  simp only [pure_bind]

/-- A kind ahead is that of a token, but for what is left of the token that the lookahead is in. -/
theorem kindAt_eq (k : Nat) (σ : LookaheadState) :
    kindAt k σ =
      if σ.pending = 0 then peekKind k >>= fun kind => pure (kind, σ)
      else if k < σ.pending then pure (.greater, σ)
      else peekKind (k - σ.pending + 1) >>= fun kind => pure (kind, σ) := by
  have hget : kindAt k σ = (if σ.pending = 0 then (liftM (peekKind k) : Lookahead TokenKind)
      else if k < σ.pending then pure .greater
      else liftM (peekKind (k - σ.pending + 1))) σ := rfl
  rw [hget]
  split
  · rfl
  · split <;> rfl

/-- Passing one kind takes a token, unless more than one `>` of it is left. -/
theorem bump_eq (σ : LookaheadState) :
    bump σ =
      if σ.pending ≤ 1 then
        advance >>= fun _ =>
          pure ((), { σ with consumed := σ.consumed + 1, pending := σ.pending - 1 })
      else pure ((), { σ with consumed := σ.consumed + 1, pending := σ.pending - 1 }) := by
  have hset : bump σ = (if σ.pending ≤ 1 then
      ((liftM (advance : Parser Token) : Lookahead Token) >>= fun _ => pure ())
      else (pure () : Lookahead Unit))
      { σ with consumed := σ.consumed + 1, pending := σ.pending - 1 } := rfl
  rw [hset]
  split
  · rw [bind_eq]
    change ((advance >>= fun t => pure (t, _)) >>= fun r => pure ((), r.2)) = _
    rw [bind_assoc]
    simp only [pure_bind]
  · rfl

/-- A kind that no other token has as a part stands only outside of one. -/
theorem check_eq_true {kind : TokenKind} (hkind : kind ≠ .greater) {σ σ' : LookaheadState}
    {s s' : ParserState} (h : check kind σ s = (.ok (true, σ'), s')) :
    σ' = σ ∧ σ.pending = 0 ∧ Parser.check kind s = (.ok true, s') := by
  have hcheck : check kind σ = kindAt 0 σ >>= fun r => pure (r.1 == kind, r.2) := rfl
  rw [hcheck, kindAt_eq] at h
  by_cases hpending : σ.pending = 0
  · rw [if_pos hpending, bind_assoc] at h
    obtain ⟨found, t, hpeek, hpure⟩ := bind_eq_ok h
    rw [pure_bind] at hpure
    obtain ⟨hok, rfl⟩ := Prod.mk.inj hpure
    obtain ⟨htrue, rfl⟩ := Prod.mk.inj (Except.ok.inj hok)
    refine ⟨rfl, hpending, ?_⟩
    rw [Parser.check, bind_apply, show Parser.currentKind s = _ from hpeek]
    simp only [htrue, pure_apply]
  · rw [if_neg hpending, if_pos (Nat.pos_of_ne_zero hpending), pure_bind] at h
    have hfalse := (Prod.mk.inj (Except.ok.inj (Prod.mk.inj h).1)).1
    exact absurd (eq_of_beq hfalse).symm hkind

end Lookahead

section Rules

variable {α β : Type} {n : Nat} {P : α → Prop} {Q : β → Prop} {w v : Lookahead α}
  {f : α → Lookahead β}

namespace Paces

instance (priority := low) [h : Walk .free w] : Paces n (fun _ => False) w where
  strides σ :=
    have := h.production σ
    inferInstance

instance (a : α) : Paces n (fun _ => False) (pure a : Lookahead α) where
  strides _ := .pure_of id

instance (b : β) : Paces n Step.IsAgain (pure (Step.done b) : Lookahead (Step α β)) where
  strides _ := .pure_of id

instance : Paces n (· = true) (pure false : Lookahead Bool) where
  strides _ := .pure_of Bool.false_ne_true

instance [hw : Paces n (fun _ => False) w] [hf : ∀ a, Paces n Q (f a)] :
    Paces n Q (w >>= f) where
  strides σ := by
    rw [Lookahead.bind_eq]
    exact .seq (hw.strides σ) fun r => (hf r.1).strides r.2

/-- What comes after a question, if "yes" means that a token was passed. -/
instance {w : Lookahead Bool} {v u : Lookahead β} [hw : Paces n (· = true) w]
    [hv : Paces (n + 1) (fun _ => False) v] [hu : Paces n Q u] :
    Paces n Q (w >>= fun found => if found = true then v else u) where
  strides σ := by
    rw [Lookahead.bind_eq]
    constructor
    intro s s' b hs hn hrun
    obtain ⟨⟨found, σ'⟩, t, hwa, hfa⟩ := bind_eq_ok hrun
    obtain ⟨hcourse, hpassed⟩ := (hw.strides σ).strides hs hn hwa
    cases found with
    | false =>
      obtain ⟨hcourse', hlt⟩ :=
        (hu.strides σ').strides hcourse.settled hcourse.le_position hfa
      exact ⟨.trans hs hcourse hcourse' (Nat.le_refl n), hlt⟩
    | true =>
      obtain ⟨hcourse', -⟩ := (hv.strides σ').strides hcourse.settled (hpassed rfl) hfa
      exact ⟨.trans hs hcourse hcourse' (Nat.le_succ n), fun _ => hcourse'.le_position⟩

/-- What comes after a question, if "yes" means that a token comes next. -/
instance {w : Lookahead Bool} {v u : Lookahead β} [hw : Spots w] [Walk .free w]
    [hv : PacesOpen n Q v] [hu : Paces n Q u] :
    Paces n Q (w >>= fun found => if found = true then v else u) where
  strides σ := by
    have honward : Paces n (fun _ => False) w := inferInstance
    rw [Lookahead.bind_eq]
    constructor
    intro s s' b hs hn hrun
    obtain ⟨⟨found, σ'⟩, t, hwa, hfa⟩ := bind_eq_ok hrun
    obtain ⟨hcourse, -⟩ := (honward.strides σ).strides hs hn hwa
    cases found with
    | false =>
      obtain ⟨hcourse', hlt⟩ :=
        (hu.strides σ').strides hcourse.settled hcourse.le_position hfa
      exact ⟨.trans hs hcourse hcourse' (Nat.le_refl n), hlt⟩
    | true =>
      obtain ⟨-, -, hopen, hpending⟩ := hw.spots hs hwa
      obtain ⟨hcourse', hlt⟩ :=
        (hv.strides σ' hpending).strides hcourse.settled hopen hcourse.le_position hfa
      exact ⟨.trans hs hcourse hcourse' (Nat.le_refl n), hlt⟩

instance {c : Prop} [Decidable c] [Paces n P w] [Paces n P v] :
    Paces n P (if c then w else v) := by
  split <;> infer_instance

end Paces

namespace PacesOpen

instance (priority := low) [h : Paces n P w] : PacesOpen n P w where
  strides σ _ :=
    have := h.strides σ
    inferInstance

/-- Where a token comes next, it is passed. -/
instance {P : PUnit → Prop} : PacesOpen n P Lookahead.bump where
  strides σ hpending := by
    constructor
    intro s s' r hs hopen hn hrun
    rw [Lookahead.bump_eq, if_pos (by omega)] at hrun
    obtain ⟨t, u, hadvance, hpure⟩ := bind_eq_ok hrun
    cases hpure
    obtain ⟨hcourse, hposition⟩ := StridesOpen.position_advance hs hopen hadvance
    exact ⟨hcourse.mono hn, fun _ => by omega⟩

instance [hw : PacesOpen n (fun _ => True) w] [hf : ∀ a, Paces (n + 1) (fun _ => False) (f a)] :
    PacesOpen n Q (w >>= f) where
  strides σ hpending := by
    rw [Lookahead.bind_eq]
    constructor
    intro s s' b hs hopen hn hrun
    obtain ⟨r, t, hwa, hfa⟩ := bind_eq_ok hrun
    obtain ⟨hcourse, hpassed⟩ := (hw.strides σ hpending).strides hs hopen hn hwa
    obtain ⟨hcourse', -⟩ :=
      ((hf r.1).strides r.2).strides hcourse.settled (hpassed trivial) hfa
    exact ⟨.trans hs hcourse hcourse' (Nat.le_succ n), fun _ => hcourse'.le_position⟩

end PacesOpen

/-! ### Questions -/

namespace Glances

instance (a : α) : Glances (pure a : Lookahead α) where
  keeps σ := inferInstanceAs (Keeps (pure (a, σ)))
  state_eq hrun := by
    cases hrun
    rfl

instance [hw : Glances w] [hf : ∀ a, Glances (f a)] : Glances (w >>= f) where
  keeps σ := by
    have := hw.keeps σ
    have := fun r : α × LookaheadState => (hf r.1).keeps r.2
    rw [Lookahead.bind_eq]
    infer_instance
  state_eq hrun := by
    rw [Lookahead.bind_eq] at hrun
    obtain ⟨r, t, hwa, hfa⟩ := bind_eq_ok hrun
    rw [(hf r.1).state_eq hfa, hw.state_eq hwa]

instance (k : Nat) : Glances (Lookahead.kindAt k) where
  keeps σ := by
    rw [Lookahead.kindAt_eq]
    infer_instance
  state_eq {σ σ' s s' a} hrun := by
    rw [Lookahead.kindAt_eq] at hrun
    split at hrun
    · obtain ⟨kind, t, -, hpure⟩ := bind_eq_ok hrun
      cases hpure
      rfl
    · split at hrun
      · cases hrun
        rfl
      · obtain ⟨kind, t, -, hpure⟩ := bind_eq_ok hrun
        cases hpure
        rfl

end Glances

namespace Spots

instance (kind : TokenKind) [hkind : kind.Whole] : Spots (Lookahead.check kind) where
  spots {σ σ' s s'} hs hrun := by
    obtain ⟨rfl, hpending, hcheck⟩ := Lookahead.check_eq_true hkind.ne_greater hrun
    have hsights : Sights (Parser.check kind) := inferInstance
    obtain ⟨hs', hposition, hopen⟩ := hsights.sights hs hcheck
    exact ⟨hs', hposition, hopen, hpending⟩

/-- The answer may depend on tokens further on. -/
instance {w v : Lookahead Bool} [hw : Spots w] [hv : Glances v] :
    Spots (w >>= fun found => if found = true then v else pure false) where
  spots {σ σ' s s'} hs hrun := by
    rw [Lookahead.bind_eq] at hrun
    obtain ⟨⟨found, τ⟩, t, hwa, hfa⟩ := bind_eq_ok hrun
    cases found with
    | false => cases hfa
    | true =>
      obtain ⟨ht, hposition, hopen, hpending⟩ := hw.spots hs hwa
      obtain ⟨hs', hposition', hopen'⟩ := (hv.keeps τ).openAt ht hopen hfa
      rw [hv.state_eq hfa]
      exact ⟨hs', hposition'.trans hposition, hopen', hpending⟩

end Spots

end Rules

/-! ### The loops of lookaheads -/

/-- What a step of a loop comes to, with what a lookahead keeps in mind after it. -/
def Parser.Step.keeping {α β : Type} (σ : LookaheadState) :
    Step α β → Step (α × LookaheadState) (β × LookaheadState)
  | .again a => .again (a, σ)
  | .done b => .done (b, σ)

namespace Lookahead

section Loops

variable {α β : Type} {n : Nat} {step : α → Lookahead (Step α β)}

/-- A step of a lookahead's loop as a step of a parser's loop. -/
def stepped (step : α → Lookahead (Step α β)) (x : α × LookaheadState) :
    Parser (Step (α × LookaheadState) (β × LookaheadState)) :=
  step x.1 x.2 >>= fun r => pure (r.1.keeping r.2)

/-- The loop of a lookahead is the loop of a parser over the same steps. -/
theorem loopFor_eq (k : Nat) (a : α) (σ : LookaheadState) :
    loopFor step k a σ = Parser.loopFor (stepped step) k (a, σ) := by
  induction k generalizing a σ with
  | zero =>
    rw [loopFor, Parser.loopFor]
    change (Parser.unexpected "end of input" >>= fun b => pure (b, σ)) = _
    funext s
    rw [bind_apply, Parser.unexpected, bind_apply, Parser.unexpected, bind_apply]
    rcases Parser.peek 0 s with ⟨_ | _, _⟩ <;> rfl
  | succ k ih =>
    rw [loopFor, Parser.loopFor, bind_eq, stepped, bind_assoc]
    congr
    funext found
    obtain ⟨outcome, σ'⟩ := found
    rw [pure_bind]
    cases outcome with
    | again next => exact ih next σ'
    | done result => rfl

/-- A loop of a lookahead is a loop of a parser that has the lookahead's state in hand. -/
theorem loop_eq (a : α) (σ : LookaheadState) :
    loop step a σ = Parser.loop (stepped step) (a, σ) := by
  have hloop : loop step a σ = get >>= fun s => loopFor step (Parser.loopBound s) a σ := by
    change ((get >>= fun s => pure (s, σ)) >>= fun r =>
      loopFor step (Parser.loopBound r.1) a r.2) = _
    rw [bind_assoc]
    simp only [pure_bind]
  rw [hloop, Parser.loop]
  congr
  funext s
  exact loopFor_eq _ a σ

instance [hstep : ∀ a, Paces n Step.IsAgain (step a)] (x : α × LookaheadState) :
    Strides n Step.IsAgain (stepped step x) where
  strides hs hn hrun := by
    obtain ⟨⟨outcome, σ⟩, t, hfirst, hpure⟩ := bind_eq_ok hrun
    cases hpure
    obtain ⟨hcourse, hpassed⟩ := ((hstep x.1).strides x.2).strides hs hn hfirst
    refine ⟨hcourse, ?_⟩
    cases outcome with
    | again next => exact hpassed
    | done result => exact nofun

end Loops

/-! ### Bracketed groups -/

/-- What a token does to the depth of brackets, and where the outermost group ends. -/
def balance (depth : Nat) : TokenKind → Step Nat Bool
  | .leftParen | .leftBracket | .leftBrace => .again (depth + 1)
  | .rightParen | .rightBracket | .rightBrace =>
    if depth ≤ 1 then .done true else .again (depth - 1)
  | _ => .again depth

/-- A lookahead outside of a token that has passed one more token. -/
def onward (σ : LookaheadState) : LookaheadState :=
  { σ with consumed := σ.consumed + 1, pending := 0 }

/-- One step of passing a group from outside of a token. -/
def balancedStep (x : Nat × LookaheadState) :
    Parser (Step (Nat × LookaheadState) (Bool × LookaheadState)) :=
  if Limits.maxLookaheadTokens < x.2.consumed then pure (.done (false, x.2))
  else Parser.currentKind >>= fun kind =>
    if kind = .endOfInput then pure (.done (false, x.2))
    else advance >>= fun _ => pure ((balance x.1 kind).keeping (onward x.2))

/-- A lookahead that asks whether its budget is spent goes on with what its counter says. -/
theorem exhausted_bind_eq {α : Type} (f : Bool → Lookahead α) (σ : LookaheadState) :
    (exhausted >>= f) σ = f (Limits.maxLookaheadTokens < σ.consumed) σ := rfl

/-- Outside of a token, a lookahead asks for the kind that the parser would see. -/
theorem currentKind_bind_eq {α : Type} (f : TokenKind → Lookahead α) {σ : LookaheadState}
    (hσ : σ.pending = 0) :
    (currentKind >>= f) σ = Parser.currentKind >>= fun kind => f kind σ := by
  rw [bind_eq, currentKind, kindAt_eq, if_pos hσ, bind_assoc]
  simp only [pure_bind]
  rfl

/-- Outside of a token, a lookahead passes one kind by taking a token. -/
theorem bump_bind_eq {α : Type} (f : Unit → Lookahead α) {σ : LookaheadState}
    (hσ : σ.pending = 0) : (bump >>= f) σ = advance >>= fun _ => f () (onward σ) := by
  rw [bind_eq, bump_eq, if_pos (by omega), bind_assoc]
  simp only [pure_bind, hσ]
  rfl

/-- Outside of a token a lookahead stays outside while it passes a group. -/
theorem balancedStep_bind_congr {α : Type} {x : Nat × LookaheadState}
    {f g : Step (Nat × LookaheadState) (Bool × LookaheadState) → Parser α}
    (hagain : ∀ depth σ, σ.pending = 0 → f (.again (depth, σ)) = g (.again (depth, σ)))
    (hdone : ∀ b, f (.done b) = g (.done b)) :
    balancedStep x >>= f = balancedStep x >>= g := by
  have hkeeping (kind : TokenKind) :
      f ((balance x.1 kind).keeping (onward x.2)) =
        g ((balance x.1 kind).keeping (onward x.2)) := by
    cases balance x.1 kind with
    | again depth => exact hagain depth _ rfl
    | done result => exact hdone _
  unfold balancedStep
  split
  · simp only [pure_bind, hdone]
  · simp only [bind_assoc]
    congr
    funext kind
    split
    · simp only [pure_bind, hdone]
    · simp only [bind_assoc, pure_bind, hkeeping]

/-- From outside of a token, a group is passed token by token. -/
theorem skipBalanced_eq {σ : LookaheadState} (hσ : σ.pending = 0) :
    skipBalanced σ = Parser.loop balancedStep (0, σ) := by
  rw [skipBalanced, loop_eq]
  generalize hstep : stepped _ = step
  have hsame (depth : Nat) (σ : LookaheadState) (hσ : σ.pending = 0) :
      step (depth, σ) = balancedStep (depth, σ) := by
    rw [← hstep, stepped, balancedStep, exhausted_bind_eq]
    by_cases hexhausted : Limits.maxLookaheadTokens < σ.consumed
    · rw [if_pos hexhausted, if_pos (by simpa using hexhausted)]
      rfl
    · rw [if_neg hexhausted, if_neg (by simpa using hexhausted), currentKind_bind_eq _ hσ,
        bind_assoc]
      have hclosing : ((bump >>= fun _ => if depth ≤ 1 then pure (Step.done true)
          else pure (Step.again (depth - 1)) : Lookahead (Step Nat Bool)) σ >>= fun r =>
            pure (r.1.keeping r.2)) = advance >>= fun _ =>
              pure ((balance depth .rightParen).keeping (onward σ)) := by
        rw [bump_bind_eq _ hσ, bind_assoc]
        unfold balance
        split <;> rfl
      congr
      funext kind
      split
      · rw [bump_bind_eq _ hσ, bind_assoc]
        rfl
      · rw [bump_bind_eq _ hσ, bind_assoc]
        rfl
      · rw [bump_bind_eq _ hσ, bind_assoc]
        rfl
      · rw [hclosing]
        rfl
      · rw [hclosing]
        rfl
      · rw [hclosing]
        rfl
      · rfl
      · rename_i hend
        have hbalance : balance depth kind = .again depth := by
          unfold balance
          split <;> first | rfl | contradiction
        rw [bump_bind_eq _ hσ, bind_assoc, if_neg hend, hbalance]
        rfl
  unfold Parser.loop
  congr
  funext s
  generalize loopBound s = k
  generalize 0 = depth
  induction k generalizing depth σ with
  | zero => rfl
  | succ k ih =>
    rw [Parser.loopFor, Parser.loopFor, hsame depth σ hσ]
    exact balancedStep_bind_congr (fun depth τ hτ => ih hτ depth) fun b => rfl

instance {n : Nat} (x : Nat × LookaheadState) : Strides n Step.IsAgain (balancedStep x) := by
  unfold balancedStep
  split
  · infer_instance
  · refine Strides.ofKind (fun kind hkind => ?_)
      (inferInstanceAs (Strides n _ (pure (Step.done (false, x.2)))))
    rw [if_neg hkind]
    infer_instance

/-! ### Steps that pass a token -/

variable {n : Nat}

instance (first second : TokenKind) [first.Whole] : Spots (checkPair first second) := by
  unfold checkPair
  infer_instance

instance : Spots atAnnotation := by unfold atAnnotation; infer_instance

instance : Spots atSegment := by unfold atSegment; infer_instance

instance (kind : TokenKind) [kind.Whole] : Paces n (· = true) (eat kind) := by
  unfold eat
  infer_instance

instance {P : Bool → Prop} : PacesOpen n P skipAnnotation := by
  unfold skipAnnotation
  infer_instance

end Lookahead

end JavaSyntax
