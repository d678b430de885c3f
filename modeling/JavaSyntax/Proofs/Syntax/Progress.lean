import JavaSyntax.Proofs.Syntax.Steps

/-!
# Progress

A parser that succeeds does not end before the place where it started, and most parsers end
behind it. For some this depends on what they come to: a loop that goes round again must have
passed a token, and a loop that ends need not have. The relation below is found for a parser
from its parts, and the steps of all loops of the grammar make progress by it.
-/

set_option synthInstance.maxSize 4096

namespace JavaSyntax

open JavaSyntax.Parser Work

/-! ### Parsers that move on -/

/-- A parser that does not go back before a position at which or behind which it starts, and
that ends behind it if its result is of a sort. -/
class Strides (n : Nat) {α : Type} (P : α → Prop) (p : Parser α) : Prop where
  strides : ∀ {s s' : ParserState} {a : α}, s.cursor.Settled → n ≤ s.cursor.position →
    p s = (.ok a, s') →
      Cursor.Course n s.cursor none s'.cursor ∧ (P a → n < s'.cursor.position)

/-- A parser that does not go back before a position. -/
abbrev Onward (n : Nat) {α : Type} (p : Parser α) : Prop := Strides n (fun _ => False) p

/-- A parser that ends behind a position. -/
abbrev Passes (n : Nat) {α : Type} (p : Parser α) : Prop := Strides n (fun _ => True) p

/-- A cursor that knows the token it stands at, which is not the end of the text. -/
def Cursor.Open (c : Cursor) : Prop := ∃ t, c.buffer[c.position]? = some t ∧ t.isEnd = false

/-- A parser that moves on like this if it starts at a token. -/
class StridesOpen (n : Nat) {α : Type} (P : α → Prop) (p : Parser α) : Prop where
  strides : ∀ {s s' : ParserState} {a : α}, s.cursor.Settled → s.cursor.Open →
    n ≤ s.cursor.position → p s = (.ok a, s') →
      Cursor.Course n s.cursor none s'.cursor ∧ (P a → n < s'.cursor.position)

/-- A question that is answered with "yes" only at a token, and does not move. -/
class Sights (p : Parser Bool) : Prop where
  sights : ∀ {s s' : ParserState}, s.cursor.Settled → p s = (.ok true, s') →
    s'.cursor.Settled ∧ s'.cursor.position = s.cursor.position ∧ s'.cursor.Open

/-- A loop goes round again. -/
def Parser.Step.IsAgain {α β : Type} : Step α β → Prop
  | .again _ => True
  | .done _ => False

namespace Strides

variable {α β : Type} {n : Nat} {P : α → Prop} {Q : β → Prop} {p q : Parser α} {f : α → Parser β}

/-- A production that relies on nothing does not go back. -/
instance (priority := low) [h : Production .free p] : Onward n p where
  strides {s s' a} hs hn hrun := by
    have hcourse := (h.runs hs trivial).course
    rw [hrun] at hcourse
    exact ⟨hcourse.mono hn, nofun⟩

/-- Moving on may be claimed of fewer results. -/
theorem weaken {R : α → Prop} (h : Strides n P p) (hR : ∀ a, R a → P a) : Strides n R p where
  strides hs hn hrun := by
    obtain ⟨hcourse, hlt⟩ := h.strides hs hn hrun
    exact ⟨hcourse, fun ha => hlt (hR _ ha)⟩

instance (priority := low) [h : Passes n p] : Onward n p := h.weaken fun _ => False.elim

/-! ### Results -/

/-- A given value of which nothing is claimed needs no token. -/
theorem pure_of {a : α} (h : ¬ P a) : Strides n P (Pure.pure a : Parser α) where
  strides hs hn hrun := by
    cases hrun
    exact ⟨.refl hs hn, fun ha => absurd ha h⟩

instance (a : α) : Onward n (Pure.pure a : Parser α) := pure_of id

instance (b : β) : Strides n Step.IsAgain (Pure.pure (Step.done b) : Parser (Step α β)) :=
  pure_of id

instance : Strides n (·.isSome = true) (Pure.pure none : Parser (Option α)) :=
  pure_of Bool.false_ne_true

instance : Strides n (· = true) (Pure.pure false : Parser Bool) :=
  pure_of Bool.false_ne_true

instance (e : SyntaxError) : Strides n P (throw e : Parser α) where
  strides _ _ hrun := by cases hrun

instance (expected : String) : Strides n P (unexpected expected : Parser α) where
  strides _ _ hrun := absurd (congrArg Prod.fst hrun) (unexpected_ne_ok _ _ _)

instance : Strides n P (refuseDepth : Parser α) where
  strides _ _ hrun := by
    obtain ⟨t, s, -, hthrow⟩ := bind_eq_ok hrun
    cases hthrow

/-! ### Sequences -/

/-- After a parser that does not go back, it is up to the next one to move on. -/
theorem seq (hp : Onward n p) (hf : ∀ a, Strides n Q (f a)) : Strides n Q (p >>= f) where
  strides hs hn hrun := by
    obtain ⟨a, t, hpa, hfa⟩ := bind_eq_ok hrun
    obtain ⟨hcourse, -⟩ := hp.strides hs hn hpa
    obtain ⟨hcourse', hlt⟩ := (hf a).strides hcourse.settled hcourse.le_position hfa
    exact ⟨.trans hs hcourse hcourse' (Nat.le_refl n), hlt⟩

/-- What comes after a part that has passed a token must not go back before it. -/
theorem passThen (hp : Passes n p) (hf : ∀ a, Onward (n + 1) (f a)) : Strides n Q (p >>= f) where
  strides hs hn hrun := by
    obtain ⟨a, t, hpa, hfa⟩ := bind_eq_ok hrun
    obtain ⟨hcourse, hpassed⟩ := hp.strides hs hn hpa
    obtain ⟨hcourse', -⟩ := (hf a).strides hcourse.settled (hpassed trivial) hfa
    exact ⟨.trans hs hcourse hcourse' (Nat.le_succ n), fun _ => hcourse'.le_position⟩

instance (priority := low) [hp : Onward n p] [hf : ∀ a, Strides n Q (f a)] :
    Strides n Q (p >>= f) := .seq hp hf

instance [hp : Passes n p] [hf : ∀ a, Onward (n + 1) (f a)] : Strides n Q (p >>= f) :=
  .passThen hp hf

/-- What comes after a question, if "yes" means that a token was passed. -/
instance {p : Parser Bool} {q r : Parser β} [hp : Strides n (· = true) p]
    [hq : Onward (n + 1) q] [hr : Strides n Q r] :
    Strides n Q (p >>= fun found => if found = true then q else r) where
  strides hs hn hrun := by
    obtain ⟨found, t, hpa, hfa⟩ := bind_eq_ok hrun
    obtain ⟨hcourse, hpassed⟩ := hp.strides hs hn hpa
    cases found with
    | false =>
      obtain ⟨hcourse', hlt⟩ := hr.strides hcourse.settled hcourse.le_position hfa
      exact ⟨.trans hs hcourse hcourse' (Nat.le_refl n), hlt⟩
    | true =>
      obtain ⟨hcourse', -⟩ := hq.strides hcourse.settled (hpassed rfl) hfa
      exact ⟨.trans hs hcourse hcourse' (Nat.le_succ n), fun _ => hcourse'.le_position⟩

/-- What comes after a search, if what is found has been passed. -/
theorem found {p : Parser (Option α)} {f : Option α → Parser β}
    (hp : Strides n (·.isSome = true) p) (hsome : ∀ a, Onward (n + 1) (f (some a)))
    (hnone : Strides n Q (f none)) : Strides n Q (p >>= f) where
  strides hs hn hrun := by
    obtain ⟨a?, t, hpa, hfa⟩ := bind_eq_ok hrun
    obtain ⟨hcourse, hpassed⟩ := hp.strides hs hn hpa
    cases a? with
    | none =>
      obtain ⟨hcourse', hlt⟩ := hnone.strides hcourse.settled hcourse.le_position hfa
      exact ⟨.trans hs hcourse hcourse' (Nat.le_refl n), hlt⟩
    | some a =>
      obtain ⟨hcourse', -⟩ := (hsome a).strides hcourse.settled (hpassed rfl) hfa
      exact ⟨.trans hs hcourse hcourse' (Nat.le_succ n), fun _ => hcourse'.le_position⟩

/-- What comes after a question, if "yes" means that a token comes next. -/
instance {p : Parser Bool} {q r : Parser β} [hp : Sights p] [honward : Onward n p]
    [hq : StridesOpen n Q q] [hr : Strides n Q r] :
    Strides n Q (p >>= fun found => if found = true then q else r) where
  strides hs hn hrun := by
    obtain ⟨found, t, hpa, hfa⟩ := bind_eq_ok hrun
    obtain ⟨hcourse, -⟩ := honward.strides hs hn hpa
    cases found with
    | false =>
      obtain ⟨hcourse', hlt⟩ := hr.strides hcourse.settled hcourse.le_position hfa
      exact ⟨.trans hs hcourse hcourse' (Nat.le_refl n), hlt⟩
    | true =>
      obtain ⟨-, -, hopen⟩ := hp.sights hs hpa
      obtain ⟨hcourse', hlt⟩ := hq.strides hcourse.settled hopen hcourse.le_position hfa
      exact ⟨.trans hs hcourse hcourse' (Nat.le_refl n), hlt⟩

instance {p : Parser Bool} {q r : Parser β} [Sights p] [Onward n p]
    [Strides n Q q] [StridesOpen n Q r] :
    Strides n Q (p >>= fun found => if (!found) = true then q else r) := by
  have hswap : (p >>= fun found => if (!found) = true then q else r) =
      p >>= fun found => if found = true then r else q := by
    congr
    funext found
    cases found <;> rfl
  rw [hswap]
  infer_instance

instance {c : Prop} [Decidable c] [Strides n P p] [Strides n P q] :
    Strides n P (if c then p else q) := by
  split <;> infer_instance

instance [hp : Passes n p] (g : α → β) : Passes n (g <$> p) := by
  rw [map_eq_pure_bind]
  infer_instance

/-! ### Positions, nodes and the state around -/

instance {f : Nat → Parser β} [hf : ∀ n, Strides n Q (f n)] : Strides n Q (position >>= f) where
  strides hs hn hrun := by
    rw [position_bind_apply] at hrun
    obtain ⟨hcourse, hlt⟩ := (hf _).strides hs (Nat.le_refl _) hrun
    exact ⟨hcourse.mono hn, fun hb => Nat.lt_of_le_of_lt hn (hlt hb)⟩

instance : Onward n (restore n) where
  strides hs hn hrun := by
    cases hrun
    exact ⟨(Cursor.Course.refl hs hn).restore (Nat.le_refl n) hn, nofun⟩

instance {f : Form} (start : Nat) (tree : Tree f) : Onward n (node start tree) where
  strides hs hn hrun := by
    rw [node_apply] at hrun
    cases hrun
    exact ⟨.refl hs hn, nofun⟩

instance [hp : Strides n P p] (context : String) : Strides n P (guarded context p) where
  strides {s s' a} hs hn hrun := by
    rw [guarded_apply] at hrun
    split at hrun
    · rcases hpeek : peek 0 s with ⟨_ | _, _⟩ <;> rw [hpeek] at hrun <;> cases hrun
    · have hcursor := (pushContext_eq context { s with depth := s.depth + 1 }).1
      have hentered : Cursor.Course n s.cursor none (entered context s).cursor := by
        rw [show (entered context s).cursor = _ from hcursor]
        exact (Cursor.Course.refl hs hn).withJournal _
      obtain ⟨hresult, hstate⟩ := Prod.mk.inj hrun
      have hpa : p (entered context s) = (.ok a, (p (entered context s)).2) :=
        Prod.ext hresult rfl
      obtain ⟨hcourse, hlt⟩ := hp.strides hentered.settled hentered.le_position hpa
      rw [← hstate]
      exact ⟨.trans hs hentered hcourse (Nat.le_refl n), hlt⟩

instance [hp : Strides n P p] (allowed : Bool) : Strides n P (withLambdas allowed p) where
  strides {s s' a} hs hn hrun := by
    rw [withLambdas_apply] at hrun
    obtain ⟨hresult, hstate⟩ := Prod.mk.inj hrun
    have hpa : p { s with lambdas := allowed } = (.ok a, (p { s with lambdas := allowed }).2) :=
      Prod.ext hresult rfl
    have hmoved := hp.strides (s := { s with lambdas := allowed }) hs hn hpa
    rw [← hstate]
    exact hmoved

end Strides

/-! ### Starting at a token -/

namespace StridesOpen

variable {α β : Type} {n : Nat} {P : α → Prop} {Q : β → Prop} {p q : Parser α} {f : α → Parser β}

instance (priority := low) [h : Strides n P p] : StridesOpen n P p where
  strides hs _ hn hrun := h.strides hs hn hrun

instance {c : Prop} [Decidable c] [StridesOpen n P p] [StridesOpen n P q] :
    StridesOpen n P (if c then p else q) := by
  split <;> infer_instance

/-- A token that comes next is taken. -/
theorem position_advance {s s' : ParserState} {t : Token} (hs : s.cursor.Settled)
    (hopen : s.cursor.Open)
    (hrun : Parser.advance s = (.ok t, s')) :
    Cursor.Course s.cursor.position s.cursor none s'.cursor ∧
      s'.cursor.position = s.cursor.position + 1 := by
  obtain ⟨u, hu, hend⟩ := hopen
  rw [Parser.advance, read_apply, Cursor.advance_apply, Cursor.peekAhead_zero hu] at hrun
  cases hrun
  refine ⟨(Cursor.Course.refl hs (Nat.le_refl _)).pastToken fun _ => hu, ?_⟩
  change (s.cursor.pastToken _).position = _
  rw [Cursor.pastToken, if_neg (by simp [hend])]

instance {P : Token → Prop} : StridesOpen n P Parser.advance where
  strides hs hopen hn hrun := by
    obtain ⟨hcourse, hposition⟩ := position_advance hs hopen hrun
    exact ⟨hcourse.mono hn, fun _ => by omega⟩

instance [hp : StridesOpen n (fun _ => True) p] [hf : ∀ a, Onward (n + 1) (f a)] :
    StridesOpen n Q (p >>= f) where
  strides hs hopen hn hrun := by
    obtain ⟨a, t, hpa, hfa⟩ := bind_eq_ok hrun
    obtain ⟨hcourse, hpassed⟩ := hp.strides hs hopen hn hpa
    obtain ⟨hcourse', -⟩ := (hf a).strides hcourse.settled (hpassed trivial) hfa
    exact ⟨.trans hs hcourse hcourse' (Nat.le_succ n), fun _ => hcourse'.le_position⟩

end StridesOpen

/-! ### Parsers that stay -/

/-- A parser that stays at its token. -/
class Keeps {α : Type} (p : Parser α) : Prop where
  keeps : ∀ {s s' : ParserState} {a : α}, s.cursor.Settled → p s = (.ok a, s') →
    Cursor.Course s.cursor.position s.cursor none s'.cursor ∧
      s'.cursor.position = s.cursor.position

namespace Keeps

variable {α β : Type} {n : Nat} {Q : β → Prop} {p q : Parser α} {f : α → Parser β}

/-- A parser that stays leaves the cursor at the token that it knows. -/
theorem openAt [hp : Keeps p] {s s' : ParserState} {a : α} (hs : s.cursor.Settled)
    (hopen : s.cursor.Open) (hrun : p s = (.ok a, s')) :
    s'.cursor.Settled ∧ s'.cursor.position = s.cursor.position ∧ s'.cursor.Open := by
  obtain ⟨hcourse, hposition⟩ := hp.keeps hs hrun
  obtain ⟨u, hu, hend⟩ := hopen
  refine ⟨hcourse.settled, hposition, u, ?_, hend⟩
  rw [hposition]
  exact hcourse.getElem?_position hs hposition hu

instance (a : α) : Keeps (Pure.pure a : Parser α) where
  keeps hs hrun := by
    cases hrun
    exact ⟨.refl hs (Nat.le_refl _), rfl⟩

instance (k : Nat) : Keeps (peek k) where
  keeps {s s' t} hs hrun := by
    have hpeek := peek_eq_ok hrun
    obtain ⟨⟨hcourse, -⟩, hfound⟩ := hs.peekAhead k
    rw [hpeek] at hcourse
    exact ⟨hcourse, (hfound _ _ hpeek).1⟩

instance [hp : Keeps p] [hf : ∀ a, Keeps (f a)] : Keeps (p >>= f) where
  keeps {s s' b} hs hrun := by
    obtain ⟨a, t, hpa, hfa⟩ := bind_eq_ok hrun
    obtain ⟨hcourse, hposition⟩ := hp.keeps hs hpa
    obtain ⟨hcourse', hposition'⟩ := (hf a).keeps hcourse.settled hfa
    refine ⟨.trans hs hcourse hcourse' ?_, hposition'.trans hposition⟩
    exact Nat.le_of_eq hposition.symm

instance {c : Prop} [Decidable c] [Keeps p] [Keeps q] : Keeps (if c then p else q) := by
  split <;> infer_instance

instance (k : Nat) : Keeps (peekKind k) := by unfold peekKind; infer_instance

instance : Keeps currentKind := by unfold currentKind; infer_instance

instance (kind : TokenKind) : Keeps (check kind) := by unfold check; infer_instance

instance (keyword : Keyword) : Keeps (checkKeyword keyword) :=
  inferInstanceAs (Keeps (check (.keyword keyword)))

instance (k : Nat) (word : String) : Keeps (peekIsWord k word) := by
  unfold peekIsWord
  infer_instance

instance (word : String) : Keeps (checkWord word) := by unfold checkWord; infer_instance

/-- What starts at a token still does after a look at what comes next. -/
instance [hp : Keeps p] [hf : ∀ a, StridesOpen n Q (f a)] : StridesOpen n Q (p >>= f) where
  strides hs hopen hn hrun := by
    obtain ⟨a, t, hpa, hfa⟩ := bind_eq_ok hrun
    obtain ⟨hsettled, hposition, hopen'⟩ := hp.openAt hs hopen hpa
    have hcourse := (hp.keeps hs hpa).1.mono hn
    obtain ⟨hcourse', hlt⟩ := (hf a).strides hsettled hopen' (hposition ▸ hn) hfa
    exact ⟨.trans hs hcourse hcourse' (Nat.le_refl n), hlt⟩

end Keeps

/-! ### Questions about the current token -/

/-- A kind that tokens can have which are not the end of the text. -/
class TokenKind.Proper (kind : TokenKind) : Prop where
  ne_endOfInput : kind ≠ .endOfInput

namespace TokenKind

instance : Proper .identifier := ⟨by decide⟩

instance (keyword : Keyword) : Proper (.keyword keyword) := ⟨by rintro ⟨⟩⟩

instance : Proper .at := ⟨by decide⟩

instance : Proper .dot := ⟨by decide⟩

instance : Proper .comma := ⟨by decide⟩

instance : Proper .semicolon := ⟨by decide⟩

instance : Proper .colon := ⟨by decide⟩

instance : Proper .colonColon := ⟨by decide⟩

instance : Proper .arrow := ⟨by decide⟩

instance : Proper .assign := ⟨by decide⟩

instance : Proper .amp := ⟨by decide⟩

instance : Proper .pipe := ⟨by decide⟩

instance : Proper .leftParen := ⟨by decide⟩

instance : Proper .leftBracket := ⟨by decide⟩

instance : Proper .leftBrace := ⟨by decide⟩

end TokenKind

namespace Sights

variable {s s' : ParserState}

/-- Looking at a token that is not the end makes the cursor know it. -/
theorem open_peek {t : Token} (hs : s.cursor.Settled) (hrun : peek 0 s = (.ok t, s'))
    (hend : t.isEnd = false) :
    s'.cursor.Settled ∧ s'.cursor.position = s.cursor.position ∧ s'.cursor.Open := by
  have hpeek : Keeps (peek 0) := inferInstance
  obtain ⟨hcourse, hposition⟩ := hpeek.keeps hs hrun
  exact ⟨hcourse.settled, hposition, t, hs.getElem?_current (peek_eq_ok hrun), hend⟩

/-- The kind of the current token, if it is not the end of the text. -/
theorem open_currentKind {kind : TokenKind} (hs : s.cursor.Settled)
    (hrun : currentKind s = (.ok kind, s')) (hkind : kind ≠ .endOfInput) :
    s'.cursor.Settled ∧ s'.cursor.position = s.cursor.position ∧ s'.cursor.Open := by
  obtain ⟨t, s'', hpeek, hpure⟩ := bind_eq_ok hrun
  cases hpure
  exact open_peek hs hpeek (beq_false_of_ne hkind)

instance (kind : TokenKind) [hkind : kind.Proper] : Sights (check kind) where
  sights hs hrun := by
    obtain ⟨kind', s'', hcurrent, hpure⟩ := bind_eq_ok hrun
    obtain ⟨hbeq, rfl⟩ := Prod.mk.inj hpure
    refine open_currentKind hs hcurrent ?_
    rw [eq_of_beq (Except.ok.inj hbeq)]
    exact hkind.ne_endOfInput

instance (keyword : Keyword) : Sights (checkKeyword keyword) :=
  inferInstanceAs (Sights (check (.keyword keyword)))

instance (word : String) : Sights (checkWord word) where
  sights hs hrun := by
    obtain ⟨t, s'', hpeek, hpure⟩ := bind_eq_ok hrun
    obtain ⟨hword, rfl⟩ := Prod.mk.inj hpure
    refine open_peek hs hpeek ?_
    have hkind := eq_of_beq (Bool.and_eq_true_iff.mp (Except.ok.inj hword)).1
    rw [Token.isEnd, hkind]
    rfl

/-- The answer may depend on tokens further on. -/
instance {p q : Parser Bool} [hp : Sights p] [hq : Keeps q] :
    Sights (p >>= fun found => if found = true then q else pure false) where
  sights hs hrun := by
    obtain ⟨found, t, hfound, hrest⟩ := bind_eq_ok hrun
    cases found with
    | false => cases hrest
    | true =>
      obtain ⟨hsettled, hposition, hopen⟩ := hp.sights hs hfound
      obtain ⟨hsettled', hposition', hopen'⟩ := hq.openAt hsettled hopen hrest
      exact ⟨hsettled', hposition'.trans hposition, hopen'⟩

/-- One of two questions is answered with "yes". -/
instance {p q : Parser Bool} [hp : Sights p] [hkeeps : Keeps p] [hq : Sights q] :
    Sights (p >>= fun found => if found = true then pure true else q) where
  sights hs hrun := by
    obtain ⟨found, t, hfound, hrest⟩ := bind_eq_ok hrun
    cases found with
    | true =>
      cases hrest
      exact hp.sights hs hfound
    | false =>
      obtain ⟨hcourse, hposition⟩ := hkeeps.keeps hs hfound
      obtain ⟨hsettled, hposition', hopen⟩ := hq.sights hcourse.settled hrest
      exact ⟨hsettled, hposition'.trans hposition, hopen⟩

instance {p q : Parser Bool} [hp : Sights p] [hq : Keeps q] :
    Sights (p >>= fun found => if (!found) = true then pure false else q) := by
  have hswap : (p >>= fun found => if (!found) = true then pure false else q) =
      p >>= fun found => if found = true then q else pure false := by
    congr
    funext found
    cases found <;> rfl
  rw [hswap]
  infer_instance

instance (first second : TokenKind) [first.Proper] : Sights (checkPair first second) := by
  unfold checkPair
  infer_instance

end Sights

/-- What comes after the kind of the current token, unless that is the end of the text. -/
theorem Strides.ofKind {β : Type} {n : Nat} {Q : β → Prop} {f : TokenKind → Parser β}
    (hf : ∀ kind, kind ≠ .endOfInput → StridesOpen n Q (f kind))
    (hend : Strides n Q (f .endOfInput)) : Strides n Q (currentKind >>= f) where
  strides {s s' b} hs hn hrun := by
    obtain ⟨kind, t, hkind, hrest⟩ := bind_eq_ok hrun
    have honward : Onward n currentKind := inferInstance
    obtain ⟨hcourse, -⟩ := honward.strides hs hn hkind
    by_cases h : kind = .endOfInput
    · subst h
      obtain ⟨hcourse', hlt⟩ := hend.strides hcourse.settled hcourse.le_position hrest
      exact ⟨.trans hs hcourse hcourse' (Nat.le_refl n), hlt⟩
    · obtain ⟨hsettled, hposition, hopen⟩ := Sights.open_currentKind hs hkind h
      obtain ⟨hcourse', hlt⟩ := (hf kind h).strides hsettled hopen (hposition ▸ hn) hrest
      exact ⟨.trans hs hcourse hcourse' (Nat.le_refl n), hlt⟩

/-! ### Demands -/

section Demands

variable {n : Nat}

instance (kind : TokenKind) [kind.Proper] : Strides n (· = true) (eat kind) := by
  unfold eat
  infer_instance

instance (keyword : Keyword) : Strides n (· = true) (eatKeyword keyword) :=
  inferInstanceAs (Strides n _ (eat (.keyword keyword)))

instance (kind : TokenKind) [kind.Proper] : Passes n (expect kind) := by
  unfold expect
  infer_instance

/-- A token that was demanded is not the end of the text. -/
theorem isEnd_of_expect {kind : TokenKind} [kind.Proper] {s s' : ParserState} {t : Token}
    (hs : s.cursor.Settled) (hrun : expect kind s = (.ok t, s')) : t.isEnd = false := by
  obtain ⟨found, s₁, hcheck, htake⟩ := bind_eq_ok hrun
  cases found with
  | false => exact absurd (congrArg Prod.fst htake) (unexpected_ne_ok _ _ _)
  | true =>
    have hsights : Sights (check kind) := inferInstance
    obtain ⟨-, -, u, hu, hend⟩ := hsights.sights hs hcheck
    have hadvance : advance s₁ = (.ok t, s') := htake
    rw [Parser.advance, read_apply, Cursor.advance_apply, Cursor.peekAhead_zero hu] at hadvance
    cases hadvance
    exact hend

instance (keyword : Keyword) : Passes n (expectKeyword keyword) :=
  inferInstanceAs (Passes n (expect (.keyword keyword)))

instance : Passes n expectIdentifier := by
  unfold expectIdentifier
  infer_instance

instance : Passes n expectTypeIdentifier := by
  unfold expectTypeIdentifier
  infer_instance

instance (word : String) : Passes n (expectWord word) := by
  unfold expectWord
  infer_instance

end Demands

/-! ### Repetition -/

section Repetition

variable {α β : Type} {n : Nat} {step : α → Parser (Step α β)}

/-- A bounded loop does not go back if its steps move on whenever it goes round. -/
theorem onward_loopFor (h : ∀ a, Strides n Step.IsAgain (step a)) (k : Nat) (a : α) :
    Onward n (loopFor step k a) := by
  induction k generalizing a with
  | zero =>
    rw [loopFor]
    infer_instance
  | succ k ih =>
    have honward : Onward n (step a) := (h a).weaken fun _ => False.elim
    rw [loopFor]
    refine .seq honward fun outcome => ?_
    cases outcome with
    | again next => exact ih next
    | done result => infer_instance

instance [h : ∀ a, Strides n Step.IsAgain (step a)] (a : α) : Onward n (loop step a) where
  strides {s _ _} hs hn hrun := (onward_loopFor h (loopBound s) a).strides hs hn hrun

end Repetition

end JavaSyntax
