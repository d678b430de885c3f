import JavaSyntax.Proofs.Token.Groups
import JavaSyntax.Proofs.Tree.Grouping
import JavaSyntax.Proofs.Tree.Parts

/-!
# What a stretch of a parse yields

While a parse goes on it passes tokens and makes nodes of them. Over a stretch of it, the
nodes that are made lie in the text that is passed, none of them reaches into another, and
each is sound together with all nodes inside it. Besides, it matters whether any token has
been passed and whether a node can start with the first one: this is the effect of the
stretch, and effects of consecutive stretches can be put together.
-/

namespace JavaSyntax

/-! ### The arrows of rules -/

/-- Whether a label is a lone `default` without a guard. -/
def Tree.isBareDefault : Tree .switchLabel → Bool
  | .switchLabel labels .absent => (Tree.switchLabel labels .absent).isDefault
  | _ => false

/-- Some tokens start with the keyword of a label, and behind it no arrow stands outside all
groups. -/
def Labels (label : Node .switchLabel) (ts : List Token) : Prop :=
  ∃ keyword between, ts = keyword :: between ∧
    (keyword.kind = .keyword .case ∨
      keyword.kind = .keyword .default ∧ label.inner.isBareDefault = true) ∧
    nest true 0 (between.map (·.kind)) = some 0

/-- The tokens of a text around the arrow of a switch rule: those before its label, the keyword of
the label, those between the keyword and the arrow, and those behind the arrow. -/
structure ArrowIn (tokens : List Token) (label : Node .switchLabel) (body : Tree .ruleBody)
    (before : List Token) (keyword : Token) (between : List Token) (arrow : Token)
    (behind : List Token) : Prop where
  tokens_eq : tokens = before ++ keyword :: (between ++ arrow :: behind)
  keyword_kind : keyword.kind = .keyword .case ∨
    keyword.kind = .keyword .default ∧ label.inner.isBareDefault = true
  arrow_kind : arrow.kind = .arrow
  /-- The label starts with its keyword and ends right before the arrow. -/
  label_start : keyword.span.start = label.span.start
  label_stop : (keyword :: between).getLast?.map (·.span.stop) = some label.span.stop
  body_behind : ∀ p ∈ body.parts, arrow.span.stop.offset ≤ p.span.start.offset
  /-- The arrow stands outside all groups that are opened behind the keyword. -/
  outside : openGroups 0 (between.map (·.kind)) = some 0
  /-- No arrow before it does. -/
  first : ∀ us t vs, between = us ++ t :: vs → t.kind = .arrow →
    openGroups 0 (us.map (·.kind)) ≠ some 0

/-! ### Sound nodes -/

namespace Part

/-- If a node is a switch rule, the tokens of a text say which arrow is its own. -/
def Ruled (tokens : List Token) (p : Part) : Prop :=
  ∀ (rule : Node .switchRule) label body, p = ⟨.switchRule, rule⟩ →
    rule.inner = .switchRule label body →
    ∃ before keyword between arrow behind,
      ArrowIn tokens label body before keyword between arrow behind

/-- Only rules of a switch have an arrow of their own. -/
theorem ruled_of_ne {tokens : List Token} {f : Form} {a : Node f} (h : f ≠ .switchRule) :
    Ruled tokens ⟨f, a⟩ :=
  fun _ _ _ hp _ => absurd (congrArg Part.form hp) h

/-- What a text says about a node that was read from it. -/
structure Sound (x : Tokenized) (p : Part) : Prop where
  source_eq : p.source = p.span.slice x.text
  start_eq : ∃ t ∈ x.tokens, p.span.start = t.span.start
  stopsAt : ∃ t ∈ x.tokens, t.StopsAt p.span.stop
  nonempty : p.span.start.offset < p.span.stop.offset
  contains : ∀ q ∈ p.children, p.span.containsSpan q.span = true
  apart : p.children.Pairwise Apart
  grouped : p.node.inner.Grouped
  ruled : p.Ruled x.tokens

/-- A node is sound, and so are all nodes inside it. -/
def Faithful (x : Tokenized) (p : Part) : Prop := ∀ q, Within q p → q.Sound x

variable {x : Tokenized} {p q : Part}

/-- A faithful node is sound. -/
theorem Faithful.sound (h : p.Faithful x) : p.Sound x := h p (.refl p)

/-- The children of a faithful node are faithful. -/
theorem Faithful.child (h : p.Faithful x) (hq : q ∈ p.children) : q.Faithful x :=
  fun r hr => h r (.child hq hr)

/-- A sound node is faithful if its children are. -/
theorem Sound.faithful (h : p.Sound x) (hchildren : ∀ q ∈ p.children, q.Faithful x) :
    p.Faithful x := by
  intro r hr
  cases hr with
  | refl => exact h
  | child hq hr => exact hchildren _ hq r hr

end Part

/-- Nodes that lie in the text of some tokens. -/
structure Fits (x : Tokenized) (ts : List Token) (parts : List Part) : Prop where
  faithful : ∀ p ∈ parts, p.Faithful x
  after : ∀ p ∈ parts, ∃ t ∈ ts, t.span.start.offset ≤ p.span.start.offset
  before : ∀ p ∈ parts, ∃ t ∈ ts, p.span.stop.offset ≤ t.span.stop.offset
  apart : parts.Pairwise Part.Apart

namespace Fits

variable {x : Tokenized} {ts us : List Token} {ps qs : List Part}

/-- No nodes fit everywhere. -/
theorem nil (ts : List Token) : Fits x ts [] := ⟨nofun, nofun, nofun, .nil⟩

/-- Nodes still fit when some are left out. -/
theorem sublist (h : Fits x ts ps) (hsub : qs.Sublist ps) : Fits x ts qs where
  faithful p hp := h.faithful p (hsub.subset hp)
  after p hp := h.after p (hsub.subset hp)
  before p hp := h.before p (hsub.subset hp)
  apart := h.apart.sublist hsub

/-- It does not matter in which order nodes are listed. -/
theorem perm (h : Fits x ts ps) (hperm : ps.Perm qs) : Fits x ts qs where
  faithful p hp := h.faithful p (hperm.mem_iff.mpr hp)
  after p hp := h.after p (hperm.mem_iff.mpr hp)
  before p hp := h.before p (hperm.mem_iff.mpr hp)
  apart := h.apart.perm hperm Part.Apart.symm

/-- Nodes in the text of earlier tokens do not reach those in the text of later ones. -/
theorem append (hps : Fits x ts ps) (hqs : Fits x us qs)
    (hle : ∀ t ∈ ts, ∀ u ∈ us, t.span.stop.offset ≤ u.span.start.offset) :
    Fits x (ts ++ us) (ps ++ qs) where
  faithful p hp := by
    rcases List.mem_append.mp hp with hp | hp
    · exact hps.faithful p hp
    · exact hqs.faithful p hp
  after p hp := by
    rcases List.mem_append.mp hp with hp | hp
    · obtain ⟨t, ht, hstart⟩ := hps.after p hp
      exact ⟨t, List.mem_append_left _ ht, hstart⟩
    · obtain ⟨t, ht, hstart⟩ := hqs.after p hp
      exact ⟨t, List.mem_append_right _ ht, hstart⟩
  before p hp := by
    rcases List.mem_append.mp hp with hp | hp
    · obtain ⟨t, ht, hstop⟩ := hps.before p hp
      exact ⟨t, List.mem_append_left _ ht, hstop⟩
    · obtain ⟨t, ht, hstop⟩ := hqs.before p hp
      exact ⟨t, List.mem_append_right _ ht, hstop⟩
  apart := by
    refine List.pairwise_append.mpr ⟨hps.apart, hqs.apart, ?_⟩
    intro p hp q hq
    obtain ⟨t, ht, hstop⟩ := hps.before p hp
    obtain ⟨u, hu, hstart⟩ := hqs.after q hq
    have := hle t ht u hu
    left
    omega

/-- A node can be replaced by one without children that has its place. -/
theorem retype {p q : Part} (h : Fits x ts [p]) (hspan : q.span = p.span)
    (hsource : q.source = p.source) (hchildren : q.children = [])
    (hgrouped : q.node.inner.Grouped) (hruled : q.Ruled x.tokens) : Fits x ts [q] := by
  have hp := (h.faithful p (List.mem_singleton_self p)).sound
  obtain ⟨t, ht, hstart⟩ := h.after p (List.mem_singleton_self p)
  obtain ⟨u, hu, hstop⟩ := h.before p (List.mem_singleton_self p)
  have hq : q.Sound x := by
    refine ⟨?_, ?_, ?_, ?_, ?_, ?_, hgrouped, hruled⟩
    · rw [hsource, hspan, hp.source_eq]
    · rw [hspan]
      exact hp.start_eq
    · rw [hspan]
      exact hp.stopsAt
    · rw [hspan]
      exact hp.nonempty
    · rw [hchildren]
      exact nofun
    · rw [hchildren]
      exact .nil
  refine ⟨?_, ?_, ?_, List.pairwise_singleton _ _⟩
  · intro r hr
    rw [List.mem_singleton.mp hr]
    refine hq.faithful ?_
    rw [hchildren]
    exact nofun
  · intro r hr
    rw [List.mem_singleton.mp hr, hspan]
    exact ⟨t, ht, hstart⟩
  · intro r hr
    rw [List.mem_singleton.mp hr, hspan]
    exact ⟨u, hu, hstop⟩

/-- The nodes inside a node lie where it lies. -/
theorem unwrap {p : Part} (h : Fits x ts (ps ++ [p])) : Fits x ts (ps ++ p.children) := by
  have hp := h.faithful p (by simp)
  have hinside (q : Part) (hq : q ∈ p.children) :
      p.span.start.offset ≤ q.span.start.offset ∧ q.span.stop.offset ≤ p.span.stop.offset := by
    simpa [Span.containsSpan] using hp.sound.contains q hq
  obtain ⟨hps, -, hapart⟩ := List.pairwise_append.mp h.apart
  refine ⟨?_, ?_, ?_, ?_⟩
  · intro q hq
    rcases List.mem_append.mp hq with hq | hq
    · exact h.faithful q (by simp [hq])
    · exact hp.child hq
  · intro q hq
    rcases List.mem_append.mp hq with hq | hq
    · exact h.after q (by simp [hq])
    · obtain ⟨t, ht, hstart⟩ := h.after p (by simp)
      exact ⟨t, ht, Nat.le_trans hstart (hinside q hq).1⟩
  · intro q hq
    rcases List.mem_append.mp hq with hq | hq
    · exact h.before q (by simp [hq])
    · obtain ⟨t, ht, hstop⟩ := h.before p (by simp)
      exact ⟨t, ht, Nat.le_trans (hinside q hq).2 hstop⟩
  · refine List.pairwise_append.mpr ⟨hps, hp.sound.apart, ?_⟩
    intro q hq r hr
    obtain ⟨hstart, hstop⟩ := hinside r hr
    rcases hapart q hq p (by simp) with hle | hle
    · left
      omega
    · right
      omega

end Fits

/-! ### Effects -/

/-- The first of some tokens can be the first one of a node. -/
def Heads (ts : List Token) : Prop := ∃ t us, ts = t :: us ∧ t.kind.leads = true

/-- A node starts with the first of some tokens and ends with the last. -/
def Covers (p : Part) (ts : List Token) : Prop :=
  ts.head?.map (·.span.start) = some p.span.start ∧
    ts.getLast?.map (·.span.stop) = some p.span.stop

/-- An arrow that is passed right behind a label is the first one that stands outside all groups. -/
theorem Labels.exists_arrowIn {x : Tokenized} {c : Cursor} {before ts us : List Token}
    {label : Node .switchLabel} {body : Tree .ruleBody} {arrow : Token} (hlabels : Labels label ts)
    (hc : c.On x) (hpassed : c.passed = before ++ ts ++ arrow :: us)
    (hcovers : Covers ⟨_, label⟩ ts) (harrow : arrow.kind = .arrow) (hbody : Fits x us body.parts) :
    ∃ before keyword between arrow behind,
      ArrowIn x.tokens label body before keyword between arrow behind := by
  obtain ⟨keyword, between, rfl, hkeyword, hnest⟩ := hlabels
  have hleads : keyword.kind.leads = true := by
    rcases hkeyword with hkind | ⟨hkind, -⟩ <;> rw [hkind] <;> rfl
  have hbuffer : c.buffer.toList = before ++ keyword :: between ++
      arrow :: (us ++ c.buffer.toList.drop c.position) := by
    rw [← List.cons_append, ← List.append_assoc, ← hpassed]
    exact (List.take_append_drop _ _).symm
  -- The arrow and the keyword are whole tokens, so they part those of the text as well.
  obtain ⟨front, behind, _, _, hwholes, hfront, -⟩ :=
    hc.settled.splitsTo.cut hbuffer (by rw [harrow]; rfl)
  obtain ⟨before', between', _, _, rfl, -, hbetween⟩ := hfront.cut rfl hleads
  rw [hbetween.nest_eq] at hnest
  obtain ⟨more, hmore⟩ := hc.isPrefix
  obtain ⟨hstart, hstop⟩ := hcovers
  have hlast := hfront.getLast?_stop
  simp only [List.getLast?_append, List.getLast?_cons, Option.some_or] at hlast
  rw [List.getLast?_cons] at hstop
  refine ⟨before', keyword, between', arrow, behind ++ more, ?_, hkeyword, harrow, ?_, ?_, ?_,
    openGroups_of_nest hnest, ?_⟩
  · simp [← hmore, hwholes]
  · exact Option.some.inj hstart
  · rw [List.getLast?_cons]
    exact hlast.symm.trans hstop
  · intro p hp
    obtain ⟨t, ht, hle⟩ := hbody.after p hp
    have hpairwise := (List.pairwise_append.mp (hbuffer ▸ hc.pairwise)).2.1
    have := (List.pairwise_cons.mp hpairwise).1 t (List.mem_append_left _ ht)
    omega
  · rintro us t vs rfl hkind
    rw [List.map_append, List.map_cons, hkind] at hnest
    exact openGroups_ne_zero_of_nest hnest

/-- The current token can be the first one of a node. -/
def Cursor.Leading (c : Cursor) : Prop :=
  ∃ t, c.buffer[c.position]? = some t ∧ t.kind.leads = true

/-- What is known about the tokens that a stretch of a parse has passed. -/
inductive Effect where
  /-- Nothing. -/
  | any
  /-- If there are any, a node can start with them. -/
  | opened
  /-- The same, and if there are none, a node can start with the current token. -/
  | ready
  /-- There are none. -/
  | fresh
  /-- There are none, and a node can start with the current token. -/
  | faced
  /-- If a node can start where the stretch starts, it can start with them. -/
  | step
  /-- There are some, and a node can start with them. -/
  | taken
  /-- They are exactly those of a node. -/
  | covered (p : Part)
  /-- They are exactly those of a label of a switch. -/
  | labelled (label : Node .switchLabel)
  /-- The stretch cannot come to an end. -/
  | never

namespace Effect

/-- An effect holds of the tokens that were passed and the place that was reached, given
whether a node could start at the beginning. -/
def Holds (lead : Prop) (ts : List Token) (c : Cursor) : Effect → Prop
  | any => True
  | opened => (ts = [] ∧ (lead → c.Leading)) ∨ Heads ts
  | ready => (ts = [] ∧ c.Leading) ∨ Heads ts
  | fresh => ts = [] ∧ (lead → c.Leading)
  | faced => ts = [] ∧ c.Leading
  | step => lead → Heads ts
  | taken => Heads ts
  | covered p => Heads ts ∧ Covers p ts
  | labelled label => Heads ts ∧ Covers ⟨_, label⟩ ts ∧ Labels label ts
  | never => False

/-- The effect of one stretch after the other. -/
def andThen : Effect → Effect → Effect
  | never, _ => never
  | _, never => never
  | fresh, e => e
  | any, _ => any
  | step, _ => step
  | taken, _ => taken
  | covered p, fresh => covered p
  | covered p, faced => covered p
  | covered _, _ => taken
  | labelled label, fresh => labelled label
  | labelled label, faced => labelled label
  | labelled _, _ => taken
  | faced, fresh => faced
  | faced, opened => ready
  | faced, step => taken
  | faced, e => e
  | opened, fresh => opened
  | opened, faced => ready
  | opened, covered _ => taken
  | opened, labelled _ => taken
  | opened, e => e
  | ready, any => any
  | ready, step => taken
  | ready, taken => taken
  | ready, covered _ => taken
  | ready, labelled _ => taken
  | ready, _ => ready

/-- Whatever the one effect holds of, the other does. -/
def Le : Effect → Effect → Prop
  | never, _ => True
  | _, any => True
  | covered p, covered q => p = q
  | covered _, taken | covered _, ready | covered _, opened | covered _, step => True
  | labelled label, labelled label' => label = label'
  | labelled label, covered p => p = ⟨_, label⟩
  | labelled _, taken | labelled _, ready | labelled _, opened | labelled _, step => True
  | taken, taken | taken, ready | taken, opened | taken, step => True
  | ready, ready | ready, opened => True
  | faced, faced | faced, fresh | faced, ready | faced, opened => True
  | fresh, fresh | fresh, opened => True
  | opened, opened => True
  | step, step => True
  | _, _ => False

end Effect

/-- The first of some tokens is the first of more. -/
theorem Heads.append {ts : List Token} (h : Heads ts) (us : List Token) : Heads (ts ++ us) := by
  obtain ⟨t, rest, rfl, hleads⟩ := h
  exact ⟨t, rest ++ us, rfl, hleads⟩

namespace Effect

variable {lead lead' : Prop} {ts us : List Token} {c c' : Cursor} {e e' : Effect}

/-- What a stronger effect holds of, a weaker one does. -/
theorem Le.holds (hle : e.Le e') (h : e.Holds lead ts c) : e'.Holds lead ts c := by
  cases e <;> cases e' <;> simp only [Le, Holds] at hle h ⊢ <;> grind

/-- An effect implies itself. -/
@[simp] theorem Le.refl (e : Effect) : e.Le e := by
  cases e <;> trivial

/-- What holds of nothing implies every effect. -/
@[simp] theorem never_le (e : Effect) : never.Le e := trivial

/-- Every effect implies the one that holds of everything. -/
@[simp] theorem le_any (e : Effect) : e.Le any := by
  cases e <;> trivial

/-- What is weaker than a weaker effect is weaker. -/
theorem Le.trans {e'' : Effect} (h : e.Le e') (h' : e'.Le e'') : e.Le e'' := by
  cases e <;> cases e' <;> simp only [Le] at h <;> cases e'' <;> simp_all [Le]

/-- Nothing that comes later changes with what a node can start. -/
@[simp] theorem taken_andThen_le (e : Effect) : (taken.andThen e).Le taken := by
  cases e <;> trivial

/-- If there are some tokens and a node can start with them, it can if there are any. -/
@[simp] theorem taken_le_opened : taken.Le opened := trivial

/-- A stretch that ends in a failure is a failure. -/
@[simp] theorem andThen_never (e : Effect) : e.andThen never = never := by
  cases e <;> rfl

/-- A stretch that passes nothing adds nothing behind another one. -/
@[simp] theorem andThen_fresh (e : Effect) : e.andThen fresh = e := by
  cases e <;> rfl

/-- A stretch that passes nothing adds nothing before another one. -/
@[simp] theorem fresh_andThen (e : Effect) : fresh.andThen e = e := by
  cases e <;> rfl

/-- Stretches in a row have the effects of both. -/
theorem Holds.andThen (h : e.Holds lead ts c) (h' : e'.Holds c.Leading us c') :
    (e.andThen e').Holds lead (ts ++ us) c' := by
  have happend (hts : Heads ts) := hts.append us
  cases e <;> cases e' <;> simp only [Effect.andThen, Holds] at h h' ⊢ <;>
    grind

end Effect

end JavaSyntax
