import JavaSyntax.Proofs.Syntax.Effect
import JavaSyntax.Proofs.Syntax.Runs

/-!
# What productions yield

A production passes tokens and comes to a result, which may hold nodes. That it yields
sound nodes with a certain effect is put together from what its parts yield, along its
definition: inside a production that remembers where it started, one keeps track of the
nodes that were made since then and of the effect so far, and what is left of the
production has to turn these into its result.
-/

namespace JavaSyntax

open Work JavaSyntax.Parser

/-! ### Stretches -/

/-- The stretch of a parse from one cursor to another: the tokens that were passed, nodes in
their text, and its effect. -/
structure Stretch (x : Tokenized) (c : Cursor) (ts : List Token) (parts : List Part)
    (e : Effect) (c' : Cursor) : Prop where
  course : Cursor.Course c.position c none c'
  passed_eq : c'.passed = c.passed ++ ts
  fits : Fits x ts parts
  holds : e.Holds c.Leading ts c'

namespace Stretch

variable {x : Tokenized} {c c' c'' : Cursor} {ts us : List Token} {ps qs : List Part}
  {e e' : Effect}

/-- A stretch over which nothing happens. -/
theorem refl (hc : c.On x) : Stretch x c [] [] .fresh c where
  course := .refl hc.settled (Nat.le_refl _)
  passed_eq := (List.append_nil _).symm
  fits := .nil _
  holds := ⟨rfl, id⟩

/-- A stretch stays on its text. -/
theorem on (h : Stretch x c ts ps e c') (hc : c.On x) : c'.On x := h.course.on hc

/-- A stretch moves the position by the tokens that were passed. -/
theorem position_eq (h : Stretch x c ts ps e c') (hc : c.On x) :
    c'.position = c.position + ts.length := by
  rw [← hc.settled.length_passed, ← (h.on hc).settled.length_passed, h.passed_eq,
    List.length_append]

/-- Tokens that are passed later stand later in the text. -/
theorem trans (hc : c.On x) (h : Stretch x c ts ps e c') (h' : Stretch x c' us qs e' c'') :
    Stretch x c (ts ++ us) (ps ++ qs) (e.andThen e') c'' where
  course := h.course.trans hc.settled h'.course h.course.le_position
  passed_eq := by rw [h'.passed_eq, h.passed_eq, List.append_assoc]
  fits := by
    refine h.fits.append h'.fits ?_
    have hpassed : c''.passed = c.passed ++ (ts ++ us) := by
      rw [h'.passed_eq, h.passed_eq, List.append_assoc]
    have hpairwise := (h'.on (h.on hc)).pairwise.sublist (List.take_sublist c''.position _)
    change List.Pairwise _ c''.passed at hpairwise
    rw [hpassed] at hpairwise
    exact (List.pairwise_append.mp (List.pairwise_append.mp hpairwise).2.1).2.2
  holds := h.holds.andThen h'.holds

/-- The effect of a stretch may be weakened. -/
theorem le (h : Stretch x c ts ps e c') (hle : e.Le e') : Stretch x c ts ps e' c' :=
  ⟨h.course, h.passed_eq, h.fits, hle.holds h.holds⟩

/-- Nodes of a stretch may be left out. -/
theorem sublist (h : Stretch x c ts ps e c') (hsub : qs.Sublist ps) : Stretch x c ts qs e c' :=
  ⟨h.course, h.passed_eq, h.fits.sublist hsub, h.holds⟩

/-- The order of the nodes of a stretch does not matter. -/
theorem perm (h : Stretch x c ts ps e c') (hperm : ps.Perm qs) : Stretch x c ts qs e c' :=
  ⟨h.course, h.passed_eq, h.fits.perm hperm, h.holds⟩

/-- Notes make no difference. -/
theorem withJournal (h : Stretch x c ts ps e c') (journal : Array LogEvent) :
    Stretch x c ts ps e { c' with journal := journal } where
  course := h.course.withJournal journal
  passed_eq := h.passed_eq
  fits := h.fits
  holds := by
    have hleading : ({ c' with journal := journal } : Cursor).Leading = c'.Leading := rfl
    have hholds := h.holds
    cases e <;> simp only [Effect.Holds, hleading] at hholds ⊢ <;> exact hholds

/-- A parse that goes back to where a stretch started is there again. -/
theorem goBack (h : Stretch x c ts ps e c') (hc : c.On x) :
    Stretch x c [] [] .fresh (c'.restore c.position) := by
  have hcourse := h.course.restore (Nat.le_refl _) h.course.le_position
  refine ⟨hcourse, ?_, .nil _, rfl, ?_⟩
  · rw [(h.on hc).passed_restore h.course.le_position, h.passed_eq, List.append_nil]
    exact List.take_left' hc.settled.length_passed
  · rintro ⟨t, ht, hleads⟩
    exact ⟨t, hcourse.getElem?_position hc.settled rfl ht, hleads⟩

/-- The span of the tokens that were passed. -/
theorem spanFrom_eq (h : Stretch x c ts ps e c') (hc : c.On x) {first last : Token}
    (hfirst : ts.head? = some first) (hlast : ts.getLast? = some last) :
    c'.spanFrom c.position = ⟨first.span.start, last.span.stop⟩ := by
  have hposition := h.position_eq hc
  have hlength := hc.settled.length_passed
  have hpos : 0 < ts.length := by
    cases ts with
    | nil => cases hfirst
    | cons => exact Nat.succ_pos _
  have hpassed (i : Nat) (hi : i < c'.position) : c'.buffer[i]? = (c.passed ++ ts)[i]? := by
    rw [← h.passed_eq, Cursor.passed, List.getElem?_take_of_lt hi, Array.getElem?_toList]
  have hstart : c'.buffer[c.position]? = some first := by
    rw [hpassed _ (by omega), List.getElem?_append_right (by omega), hlength, Nat.sub_self,
      ← List.head?_eq_getElem?, hfirst]
  have hprevious : c'.previous = some last := by
    rw [Cursor.previous, if_neg (by omega), hpassed _ (by omega),
      List.getElem?_append_right (by omega), hlength, ← hlast, List.getLast?_eq_getElem?]
    congr 1
    omega
  simp only [Cursor.spanFrom, hstart, hprevious, Option.elim_some]
  rw [if_pos (by omega)]

/-- The tokens that were passed stand between the first and the last of them. -/
theorem bounds (h : Stretch x c ts ps e c') (hc : c.On x) {first last : Token}
    (hfirst : ts.head? = some first) (hlast : ts.getLast? = some last) {t : Token} (ht : t ∈ ts) :
    first.span.start.offset ≤ t.span.start.offset ∧ t.span.start.offset < t.span.stop.offset ∧
      t.span.stop.offset ≤ last.span.stop.offset := by
  have hc' := h.on hc
  have hmem {u : Token} (hu : u ∈ ts) : u ∈ c'.passed := by
    rw [h.passed_eq]
    exact List.mem_append_right _ hu
  have hlt {u : Token} (hu : u ∈ ts) : u.span.start.offset < u.span.stop.offset :=
    hc'.start_lt_stop (hc'.mem_buffer (hmem hu)) (hc'.isEnd_eq_false (hmem hu))
  have hpairwise := hc'.pairwise.sublist (List.take_sublist c'.position _)
  change List.Pairwise _ c'.passed at hpairwise
  rw [h.passed_eq] at hpairwise
  have hpairwise := (List.pairwise_append.mp hpairwise).2.1
  refine ⟨?_, hlt ht, ?_⟩
  · obtain ⟨rest, rfl⟩ : ∃ rest, ts = first :: rest := List.head?_eq_some_iff.mp hfirst
    rcases List.mem_cons.mp ht with rfl | hrest
    · exact Nat.le_refl _
    · have hle := (List.pairwise_cons.mp hpairwise).1 t hrest
      have := hlt (List.mem_cons_self (a := first) (l := rest))
      omega
  · obtain ⟨front, rfl⟩ : ∃ front, ts = front ++ [last] := List.getLast?_eq_some_iff.mp hlast
    rcases List.mem_append.mp ht with hfront | hlast
    · have hle := (List.pairwise_append.mp hpairwise).2.2 t hfront last (by simp)
      have := hlt (u := last) (by simp)
      omega
    · exact Nat.le_of_eq (by rw [List.mem_singleton.mp hlast])

/-- A node of all that was passed. -/
theorem node {f : Form} {tree : Tree f} (h : Stretch x c ts tree.parts e c') (hc : c.On x)
    (hgrouped : tree.Grouped) (he : e.Le .taken) {p : Part}
    (hp : p = ⟨f, .located tree (c'.spanFrom c.position)
      (c'.sourceText (c'.spanFrom c.position))⟩) (hruled : p.Ruled x.tokens) :
    Stretch x c ts [p] (.covered p) c' := by
  have hc' := h.on hc
  have hheads : Heads ts := he.holds h.holds
  obtain ⟨first, rest, hts, hleads⟩ := hheads
  have hfirst : ts.head? = some first := by rw [hts]; rfl
  obtain ⟨last, hlast⟩ : ∃ last, ts.getLast? = some last := by
    rw [hts]
    exact ⟨_, List.getLast?_eq_some_getLast (by simp)⟩
  have hspan : p.span = ⟨first.span.start, last.span.stop⟩ := by
    rw [hp]
    exact h.spanFrom_eq hc hfirst hlast
  have hfirstMem := List.mem_of_head? hfirst
  have hlastMem := List.mem_of_getLast? hlast
  have hbuffer {t : Token} (ht : t ∈ ts) : t ∈ c'.buffer.toList := by
    refine hc'.mem_buffer ?_
    rw [h.passed_eq]
    exact List.mem_append_right _ ht
  have hbounds {t : Token} (ht : t ∈ ts) := h.bounds hc hfirst hlast ht
  have hchildren : p.children = tree.parts := by
    rw [hp]
    rfl
  have hsound : p.Sound x := by
    refine ⟨?_, ?_, ?_, ?_, ?_, ?_, ?_, hruled⟩
    · rw [← hc'.text_eq, hp]
      rfl
    · rw [hspan]
      exact ⟨first, hc'.mem_of_leads (hbuffer hfirstMem) hleads, rfl⟩
    · rw [hspan]
      exact hc'.exists_stopsAt (hbuffer hlastMem)
    · have := hbounds hfirstMem
      rw [hspan]
      dsimp only
      omega
    · intro q hq
      rw [hchildren] at hq
      obtain ⟨t, ht, hstart⟩ := h.fits.after q hq
      obtain ⟨u, hu, hstop⟩ := h.fits.before q hq
      have ht' := hbounds ht
      have hu' := hbounds hu
      rw [hspan]
      simp only [Span.containsSpan, Bool.and_eq_true, decide_eq_true_eq]
      omega
    · rw [hchildren]
      exact h.fits.apart
    · rw [hp]
      exact hgrouped
  refine ⟨h.course, h.passed_eq, ⟨?_, ?_, ?_, List.pairwise_singleton _ _⟩, ?_, ?_, ?_⟩
  · intro q hq
    rw [List.mem_singleton.mp hq]
    refine hsound.faithful ?_
    intro r hr
    rw [hchildren] at hr
    exact h.fits.faithful r hr
  · intro q hq
    rw [List.mem_singleton.mp hq, hspan]
    exact ⟨first, hfirstMem, Nat.le_refl _⟩
  · intro q hq
    rw [List.mem_singleton.mp hq, hspan]
    exact ⟨last, hlastMem, Nat.le_refl _⟩
  · exact ⟨first, rest, hts, hleads⟩
  · rw [hfirst, hspan]
    rfl
  · rw [hlast, hspan]
    rfl

end Stretch

/-! ### Results that hold nodes -/

/-- The nodes of several lists, one list after the other. -/
def Part.join : List (List Part) → List Part
  | [] => []
  | ps :: rest => rest.foldl (· ++ ·) ps

/-- Joining lists of nodes is flattening. -/
theorem Part.join_eq_flatten (pieces : List (List Part)) : join pieces = pieces.flatten := by
  cases pieces with
  | nil => rfl
  | cons ps rest =>
    change rest.foldl (· ++ ·) ps = ps ++ rest.flatten
    induction rest generalizing ps with
    | nil => simp
    | cons qs rest ih => rw [List.foldl_cons, ih, List.flatten_cons, List.append_assoc]

/-- Joining goes through concatenation. -/
theorem Part.join_append (ps qs : List (List Part)) : join (ps ++ qs) = join ps ++ join qs := by
  simp only [join_eq_flatten, List.flatten_append]

/-- What a production may come to, and which nodes are in it. -/
class Bears (α : Type) where
  pieces : α → List (List Part)

export Bears (pieces)

section Bears

variable {α β : Type} {f : Form}

instance (priority := low) plain : Bears α := ⟨fun _ => []⟩

instance : Bears (Tree f) := ⟨fun t => [t.parts]⟩

instance : Bears (List (Tree f)) := ⟨fun ts => [(Tree.ofList ts).parts]⟩

instance : Bears (Option (Tree f)) := ⟨fun t => [(Tree.ofOption t).parts]⟩

instance : Bears (Option (List (Tree f))) := ⟨fun ts => [(Tree.ofOption (ts.map .ofList)).parts]⟩

instance [Bears α] [Bears β] : Bears (α × β) := ⟨fun ab => pieces ab.1 ++ pieces ab.2⟩

instance [Bears α] [Bears β] : Bears (Step α β) where
  pieces
    | .again a => pieces a
    | .done b => pieces b

end Bears

/-! ### Yields and shapes -/

/-- A production yields sound nodes, with an effect that depends on its result. -/
class Yields {α : Type} [Bears α] (x : Tokenized) (p : Parser α)
    (effect : outParam (α → Effect)) : Prop where
  run : ∀ {s s' : ParserState} {a : α}, s.cursor.On x → p s = (.ok a, s') →
    ∃ ts, Stretch x s.cursor ts (Part.join (pieces a)) (effect a) s'.cursor

/-- A production takes a stretch on. -/
theorem Yields.extend {α : Type} [Bears α] {x : Tokenized} {p : Parser α} {effect : α → Effect}
    (hp : Yields x p effect) {c : Cursor} {s s' : ParserState} {a : α} {ts : List Token}
    {G : List (List Part)} {e : Effect} (hc : c.On x)
    (h : Stretch x c ts (Part.join G) e s.cursor) (hrun : p s = (.ok a, s')) :
    ∃ us, Stretch x c us (Part.join (G ++ pieces a)) (e.andThen (effect a)) s'.cursor := by
  obtain ⟨us, hstretch⟩ := hp.run (h.on hc) hrun
  have htrans := h.trans hc hstretch
  rw [← Part.join_append] at htrans
  exact ⟨_, htrans⟩

/-- The rest of a production that started at a position, given the nodes that were made since
then and the effect so far: it turns them into its result. -/
structure Shapes {α : Type} [Bears α] (x : Tokenized) (n : Nat) (given : List (List Part))
    (e : Effect) (p : Parser α) (effect : α → Effect) : Prop where
  run : ∀ {c : Cursor} {s s' : ParserState} {a : α} {ts : List Token}, c.On x → c.position = n →
    Stretch x c ts (Part.join given) e s.cursor → p s = (.ok a, s') →
    ∃ ts', Stretch x c ts' (Part.join (pieces a)) (effect a) s'.cursor

namespace Shapes

variable {α β : Type} [Bears α] [Bears β] {x : Tokenized} {n : Nat}
  {G G' : List (List Part)} {e d : Effect} {p : Parser α} {f : α → Parser β}
  {effect effect' eff : α → Effect} {post : β → Effect}

/-- The next step yields something, and what is left can use it. -/
theorem seq [hp : Yields x p eff]
    (hf : ∀ a, Shapes x n (G ++ pieces a) (e.andThen (eff a)) (f a) post) :
    Shapes x n G e (p >>= f) post where
  run {c s s' b ts} hc hn h hrun := by
    obtain ⟨a, s₁, hok, hrest⟩ := bind_eq_ok hrun
    obtain ⟨us, hstretch⟩ := hp.extend hc h hok
    exact (hf a).run hc hn hstretch hrest

/-- The next step only looks, and what is left does not depend on what it sees. -/
theorem look [hp : Yields x p eff] (hf : ∀ a, Shapes x n (G ++ pieces a) e (f a) post)
    (hle : ∀ a, (eff a).Le .fresh := by intro _; simp) : Shapes x n G e (p >>= f) post := by
  have : Yields x p fun _ => .fresh := ⟨fun hs hrun => by
    obtain ⟨ts, hstretch⟩ := hp.run hs hrun
    exact ⟨ts, hstretch.le (hle _)⟩⟩
  refine seq fun a => ?_
  rw [Effect.andThen_fresh]
  exact hf a

/-- Nothing is left to show after a step that cannot succeed. -/
theorem fail [hp : Yields x p fun _ => .never] : Shapes x n G e (p >>= f) post where
  run {c s s' b ts} hc hn h hrun := by
    obtain ⟨a, s₁, hok, -⟩ := bind_eq_ok hrun
    obtain ⟨us, hstretch⟩ := hp.run (h.on hc) hok
    exact hstretch.holds.elim

/-- The next step answers a question, and what is left depends on the answer. -/
theorem ask {p : Parser Bool} {q r : Parser β} {eff : Bool → Effect} [hp : Yields x p eff]
    (hyes : Shapes x n G (e.andThen (eff true)) q post)
    (hno : Shapes x n G (e.andThen (eff false)) r post) :
    Shapes x n G e (p >>= fun answer => if answer = true then q else r) post := by
  refine seq fun answer => ?_
  rw [show G ++ pieces answer = G from List.append_nil _]
  cases answer with
  | false => exact hno
  | true => exact hyes

/-- A question whose answer no comes first. -/
theorem askNot {p : Parser Bool} {q r : Parser β} {eff : Bool → Effect} [hp : Yields x p eff]
    (hno : Shapes x n G (e.andThen (eff false)) q post)
    (hyes : Shapes x n G (e.andThen (eff true)) r post) :
    Shapes x n G e (p >>= fun answer => if (!answer) = true then q else r) post := by
  refine seq fun answer => ?_
  rw [show G ++ pieces answer = G from List.append_nil _]
  cases answer with
  | false => exact hno
  | true => exact hyes

/-- What is left depends on a condition. -/
theorem cases {c : Prop} [Decidable c] {p q : Parser α} (hp : c → Shapes x n G e p effect)
    (hq : ¬ c → Shapes x n G e q effect) :
    Shapes x n G e (if c then p else q) effect := by
  split
  · exact hp ‹_›
  · exact hq ‹_›

/-- The next step uses all nodes that were made so far. -/
theorem chain (eff : α → Effect) (hp : Shapes x n G' d p eff)
    (hf : ∀ a, Shapes x n (pieces a) (eff a) (f a) post)
    (hparts : (Part.join G).Perm (Part.join G') := by exact List.Perm.refl _)
    (he : e.Le d := by trivial) : Shapes x n G e (p >>= f) post where
  run {c s s' b ts} hc hn h hrun := by
    obtain ⟨a, s₁, hok, hrest⟩ := bind_eq_ok hrun
    obtain ⟨us, hstretch⟩ := hp.run hc hn ((h.perm hparts).le he) hok
    exact (hf a).run hc hn hstretch hrest

/-- The last step yields the result. -/
theorem tail [hp : Yields x p eff]
    (hle : ∀ a, (e.andThen (eff a)).Le (effect a) := by
      intro a; first | trivial | (cases a <;> trivial)) :
    Shapes x n G e p effect where
  run hc hn h hrun := by
    obtain ⟨us, hstretch⟩ := hp.run (h.on hc) hrun
    have htrans := (h.trans hc hstretch).le (hle _)
    exact ⟨_, htrans.sublist (List.sublist_append_right _ _)⟩

/-- The nodes that were made are those of the result. -/
theorem pure {a : α}
    (hparts : (Part.join G).Perm (Part.join (pieces a)) := by exact List.Perm.refl _)
    (he : e.Le (effect a) := by trivial) : Shapes x n G e (pure a) effect where
  run hc hn h hrun := by
    cases hrun
    exact ⟨_, (h.perm hparts).le he⟩

/-- The nodes that were made become the children of a new one. -/
theorem nodeThen {f : Form} {tree : Tree f} {k : Node f → Parser β}
    (hparts : (Part.join G).Perm tree.parts) (hgrouped : tree.Grouped) (he : e.Le .taken)
    (hk : ∀ a : Node f, a.inner = tree → Shapes x n [a.parts] (.covered ⟨f, a⟩) (k a) post)
    (hform : f ≠ .switchRule := by decide) :
    Shapes x n G e (Parser.node n tree >>= k) post where
  run {c s s' b ts} hc hn h hrun := by
    rw [bind_apply, node_apply] at hrun
    subst hn
    have hnode := (h.perm hparts).node hc hgrouped he rfl (Part.ruled_of_ne hform)
    exact (hk _ rfl).run hc rfl hnode hrun

/-- The rest of a production makes a node of everything since its start. -/
theorem node {f : Form} {tree : Tree f} {effect : Node f → Effect}
    (hparts : (Part.join G).Perm tree.parts := by exact List.Perm.refl _)
    (hgrouped : tree.Grouped := by trivial)
    (he : e.Le .taken := by trivial)
    (heffect : ∀ a : Node f, a.inner = tree → (Effect.covered ⟨f, a⟩).Le (effect a) := by
      intro _ _; first | rfl | trivial)
    (hform : f ≠ .switchRule := by decide) :
    Shapes x n G e (Parser.node n tree) effect where
  run {c s s' b ts} hc hn h hrun := by
    rw [node_apply] at hrun
    subst hn
    have hnode := (h.perm hparts).node hc hgrouped he rfl (Part.ruled_of_ne hform)
    cases hrun
    exact ⟨ts, hnode.le (heffect _ rfl)⟩

/-- The parse goes back to where the production started. -/
theorem goBack {f : Unit → Parser α} (hf : Shapes x n [] .fresh (f ()) effect) :
    Shapes x n G e (restore n >>= f) effect where
  run hc hn h hrun := by
    subst hn
    exact hf.run hc rfl (h.goBack hc) hrun

/-- The nodes at hand may be grouped in another way and the effect so far weakened. -/
theorem weaken (h : Shapes x n G' d p effect')
    (hparts : (Part.join G).Perm (Part.join G') := by exact List.Perm.refl _)
    (he : e.Le d := by trivial)
    (heffect : ∀ a, (effect' a).Le (effect a) := by intro _; exact Effect.Le.refl _) :
    Shapes x n G e p effect where
  run hc hn hstretch hrun := by
    obtain ⟨ts, hdone⟩ := h.run hc hn ((hstretch.perm hparts).le he) hrun
    exact ⟨ts, hdone.le (heffect _)⟩

/-- Some of the nodes are not used. -/
theorem discard (h : Shapes x n G' e p effect)
    (hsub : (Part.join G').Sublist (Part.join G)) : Shapes x n G e p effect where
  run hc hn hstretch hrun := h.run hc hn (hstretch.sublist hsub) hrun

/-- The tree inside a node is used without the node. -/
theorem unwrap {f : Form} {a : Node f} (h : Shapes x n (G ++ [a.inner.parts]) e p effect) :
    Shapes x n (G ++ [a.parts]) e p effect where
  run hc hn hstretch hrun := by
    refine h.run hc hn ⟨hstretch.course, hstretch.passed_eq, ?_, hstretch.holds⟩ hrun
    have hfits := hstretch.fits
    rw [Part.join_append, show Part.join [a.parts] = a.parts from rfl, Tree.parts_node] at hfits
    rw [Part.join_append]
    exact hfits.unwrap

/-- Nothing has to be shown of what cannot be reached. -/
theorem vacuous : Shapes x n G .never p effect := ⟨fun _ _ h => h.holds.elim⟩

/-- A production may look at the state as long as it shapes the same whatever it sees. -/
theorem observe {f : ParserState → Parser α} (h : ∀ s, Shapes x n G e (f s) effect) :
    Shapes x n G e (get >>= f) effect where
  run hc hn hstretch hrun := (h _).run hc hn hstretch hrun

/-- Whether lambdas are allowed does not matter for what is yielded. -/
theorem withLambdas {allowed : Bool} (h : Shapes x n G e p effect) :
    Shapes x n G e (withLambdas allowed p) effect where
  run {c s s' a ts} hc hn hstretch hrun := by
    rw [withLambdas_apply] at hrun
    rcases hok : p { s with lambdas := allowed } with ⟨r, s₁⟩
    rw [hok] at hrun
    cases hrun
    obtain ⟨us, hdone⟩ := h.run (s := { s with lambdas := allowed }) hc hn hstretch hok
    exact ⟨us, hdone⟩

/-- A loop whose steps keep an effect that depends on where the loop stands. -/
theorem loop {step : α → Parser (Step α β)} {I : α → Effect} {a : α}
    (hstep : ∀ a, Shapes x n (pieces a) (I a) (step a) fun
      | .again a => I a
      | .done b => post b)
    (hparts : (Part.join G).Perm (Part.join (pieces a)) := by exact List.Perm.refl _)
    (he : e.Le (I a) := by trivial) : Shapes x n G e (Parser.loop step a) post where
  run {c s s' b ts} hc hn hstretch hrun := by
    change loopFor step (loopBound s) a s = _ at hrun
    replace hstretch := (hstretch.perm hparts).le he
    clear hparts he
    generalize loopBound s = bound at hrun
    induction bound generalizing s a ts with
    | zero => exact absurd (congrArg Prod.fst hrun) (unexpected_ne_ok _ _ _)
    | succ bound ih =>
      obtain ⟨outcome, s₁, hok, hrest⟩ := bind_eq_ok hrun
      obtain ⟨us, hnext⟩ := (hstep a).run hc hn hstretch hok
      cases outcome with
      | again a => exact ih hnext hrest
      | done b =>
        cases hrest
        exact ⟨us, hnext⟩

end Shapes

namespace Yields

variable {α β : Type} [Bears α] [Bears β] {x : Tokenized} {p : Parser α}
  {effect eff : α → Effect}

/-- A production that remembers where it starts. -/
theorem start {f : Nat → Parser α} (h : ∀ n, Shapes x n [] .fresh (f n) effect) :
    Yields x (position >>= f) effect where
  run hs hrun := (h _).run hs rfl (.refl hs) hrun

/-- What shapes from nothing at every start is a production that yields. -/
theorem free (h : ∀ n, Shapes x n [] .fresh p effect) : Yields x p effect where
  run hs hrun := (h _).run hs rfl (.refl hs) hrun

/-- The effect of a production may be weakened. -/
theorem le (h : Yields x p eff) (hle : ∀ a, (eff a).Le (effect a)) : Yields x p effect where
  run hs hrun := by
    obtain ⟨ts, hstretch⟩ := h.run hs hrun
    exact ⟨ts, hstretch.le (hle _)⟩

end Yields

namespace Shapes

variable {α : Type} [Bears α] {x : Tokenized} {n : Nat} {G : List (List Part)} {e : Effect}
  {effect : α → Effect} {f : Nat → Parser α}

/-- What is left remembers where it starts, and uses nothing that was made before. -/
theorem start (eff : α → Effect) (h : ∀ m, Shapes x m [] .fresh (f m) eff)
    (hle : ∀ a, (e.andThen (eff a)).Le (effect a) := by
      intro a; first | trivial | (cases a <;> trivial)) :
    Shapes x n G e (position >>= f) effect :=
  have := Yields.start h
  .tail hle

/-- The same, where a node can start with the current token. -/
theorem startFaced (eff : α → Effect) (h : ∀ m, Shapes x m [] .faced (f m) eff)
    (he : e.Le .faced := by trivial)
    (hle : ∀ a, (e.andThen (eff a)).Le (effect a) := by
      intro a; first | trivial | (cases a <;> trivial)) :
    Shapes x n G e (position >>= f) effect where
  run {c s s' a ts} hc hn hstretch hrun := by
    have hs := hstretch.on hc
    have hfaced : Stretch x s.cursor [] [] .faced s.cursor :=
      ⟨(Stretch.refl hs).course, (Stretch.refl hs).passed_eq, .nil _, rfl,
        (he.holds hstretch.holds).2⟩
    obtain ⟨us, hinner⟩ := (h s.cursor.position).run hs rfl hfaced hrun
    have htrans := (hstretch.trans hc hinner).le (hle a)
    exact ⟨_, htrans.sublist (List.sublist_append_right _ _)⟩

end Shapes

end JavaSyntax
