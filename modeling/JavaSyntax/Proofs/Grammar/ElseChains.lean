import JavaSyntax.Proofs.Grammar.Progress
import JavaSyntax.Proofs.Grammar.StatementLifts
import JavaSyntax.Proofs.Syntax.Reaches

/-!
# Chains of conditionals

By the grammar of Java the `else` branch of an `if` is a statement, so a chain of them nests as
deep as it is long. Here that recursive reading is compared with the reading of a chain in one
loop: the loop comes to the same wherever the recursion is not nested too deep. Nothing in the
loop goes deeper, so it reads chains of any length.
-/

set_option synthInstance.maxSize 16384

namespace JavaSyntax

open JavaSyntax.Parser Work

namespace Grammar

/-! ### The recursive reading -/

/-- Reads an `if` with a statement as its `else` branch. -/
def nestedIf (g : Grammar) : Parser (Tree .statement) := do
  let arm ← g.ifArm
  let branch ← after? (.keyword .else) g.statement
  return arm.tree branch

/-- Reads what a statement is, an `if` by the recursion. -/
def nestedTree (g : Grammar) : Parser (Tree .statement) := do
  if ← checkKeyword .if then g.nestedIf else g.statementTree

/-- Reads a statement, an `if` by the recursion. -/
def nestedBody (g : Grammar) : Parser (Node .statement) := do
  let start ← position
  let tree ← g.nestedTree
  node start tree

/-- So many levels of the grammar that reads every `if` by the recursion. -/
def nestedLevels : Nat → Grammar
  | 0 => innermost
  | n + 1 =>
    let g := nestedLevels n
    { g.around with statement := guarded "statement" g.nestedBody }

/-! ### The reading of a chain -/

/-- Reads an `if` with at most so many arms after it nested in it. -/
def chainWithin (g : Grammar) (fuel : Nat) : Parser (Tree .statement) := do
  let arm ← g.ifArm
  let branch ← g.elseBranch? fuel
  return arm.tree branch

/-- Reads what stands after an `else`, with at most so many arms after it nested in it. -/
def branchWithin (g : Grammar) (fuel : Nat) : Parser (Node .statement) := do
  if ← checkKeyword .if then
    let start ← position
    let tree ← g.chainWithin fuel
    node start tree
  else g.statement

/-- What stands after an `else` is read with one arm less to go. -/
theorem elseBranch?_succ (g : Grammar) (fuel : Nat) :
    g.elseBranch? (fuel + 1) = after? (.keyword .else) (g.branchWithin fuel) := by
  rw [elseBranch?, after?, eatKeyword]
  congr 1
  funext isElse
  cases isElse with
  | false => rfl
  | true =>
    simp only [if_true, branchWithin, bind_assoc]
    congr 1
    funext isIf
    cases isIf with
    | false => rfl
    | true =>
      simp only [if_true, chainWithin, ifArm, bind_assoc, pure_bind]
      rfl

/-- A parser that follows its course has done so whenever it comes to a result. -/
theorem course_of_ok {α : Type} {p : Parser α} [hp : Production .free p] {a : α}
    {s s' : ParserState} (hs : s.cursor.Settled) (hrun : p s = (.ok a, s')) :
    Cursor.Course s.cursor.position s.cursor none s'.cursor := by
  have hcourse := (hp.runs hs trivial).course
  rwa [hrun] at hcourse

/-- What comes next stays the same when it is looked at. -/
theorem currentKind_again {kind : TokenKind} {s s' : ParserState} (hs : s.cursor.Settled)
    (hkind : currentKind s = (.ok kind, s')) : currentKind s' = (.ok kind, s') := by
  obtain ⟨t, u, hpeek, hpure⟩ := bind_eq_ok hkind
  obtain ⟨hresult, rfl⟩ := Prod.mk.inj hpure
  have hget := hs.getElem?_current (peek_eq_ok hpeek)
  have hagain : peek 0 u = (.ok t, u) := by
    rw [peek, read_apply, Cursor.peekAhead_zero hget]
    rfl
  rw [currentKind, peekKind, bind_apply, hagain]
  exact congrArg (·, u) hresult

/-- A chain needs no more fuel than the text has bytes. -/
theorem ifStatement_eq_chainWithin (g : Grammar) [g.Productive] {s : ParserState}
    (hs : s.cursor.Settled) : g.ifStatement s = g.chainWithin (loopBound s) s := by
  rw [ifStatement_eq, chainWithin, bind_apply, bind_apply]
  cases harm : g.ifArm s with
  | mk result s' =>
    cases result with
    | error e => rfl
    | ok arm =>
      have hbound : loopBound s' = loopBound s := by
        rw [loopBound, (course_of_ok hs harm).text_eq, loopBound]
      dsimp only
      rw [bind_apply, get_apply]
      dsimp only
      rw [hbound]

/-- A statement may be asked whether it starts with `if` before it is read. -/
theorem statementTree_eq (g : Grammar) {s : ParserState} (hs : s.cursor.Settled) :
    g.statementTree s = (checkKeyword .if >>= fun isIf =>
      if isIf = true then g.ifStatement else g.statementTree) s := by
  cases hkind : currentKind s with
  | mk result s' =>
    cases result with
    | error e =>
      have hcheck : checkKeyword .if s = (.error e, s') := by
        rw [checkKeyword, check, bind_apply, hkind]
      rw [bind_apply, hcheck, statementTree, bind_apply, hkind]
    | ok kind =>
      have hcheck : checkKeyword .if s = (.ok (kind == .keyword .if), s') := by
        rw [checkKeyword, check, bind_apply, hkind]
        rfl
      rw [bind_apply, hcheck]
      by_cases hif : kind = .keyword .if
      · rw [hif] at hkind ⊢
        rw [statementTree, bind_apply, hkind]
        rfl
      · have hagain : currentKind s' = (.ok kind, s') := currentKind_again hs hkind
        rw [beq_false_of_ne hif, statementTree, bind_apply, hkind]
        dsimp only
        rw [if_neg Bool.false_ne_true, bind_apply, hagain]

/-! ### From the recursion to the loop -/

instance (g : Grammar) (fuel : Nat) : LooksFirst (g.branchWithin fuel) := by
  unfold branchWithin
  infer_instance

/-- A parser for what stands after an `else` lifts to the reading of it as a part of the chain,
if that has fuel for the rest of the text. -/
def LiftsBranch (k : Nat) (p : Parser (Node .statement)) (h : Grammar) : Prop :=
  ∀ {i j fuel : Nat} {s t : ParserState}, s.Deeper i j t → k ≤ s.cursor.position →
    s.cursor.text.utf8ByteSize ≤ s.cursor.position + fuel →
      Surfaces i j k (p s) (h.branchWithin fuel t)

section Chain

variable {g h : Grammar} {i j k fuel : Nat} {s t : ParserState}

/-- If what stands after an `else` lifts, so does the `else` together with it. -/
theorem LiftsBranch.after (hp : LiftsBranch k g.statement h) (hst : s.Deeper i j t)
    (hk : k ≤ s.cursor.position)
    (hfuel : s.cursor.text.utf8ByteSize < s.cursor.position + fuel) :
    Surfaces i j k (after? (.keyword .else) g.statement s) (h.elseBranch? fuel t) := by
  cases fuel with
  | zero =>
    have hle := hst.sound.position_le
    omega
  | succ fuel =>
    have heat : Lifts k (eat (.keyword .else)) (eat (.keyword .else)) := inferInstance
    rw [elseBranch?_succ]
    refine surfaces_bind (heat.surfaces hst hk) fun {isElse s' t'} hrun _ hst' hk' => ?_
    cases isElse with
    | false => exact .ok none hst' hk'
    | true =>
      have hcourse := course_of_ok hst.sound.settled hrun
      have hle := hcourse.le_position
      refine surfaces_bind (hp hst' hk' ?_) fun {branch _ _} _ _ hst'' hk'' => .ok _ hst'' hk''
      rw [hcourse.text_eq]
      omega

/-- An arm passes a token, so it needs a part of the fuel. -/
theorem LiftsBranch.nestedIf [g.Lifting h] [h.Productive] [h.Striding]
    (hp : LiftsBranch k g.statement h) (hst : s.Deeper i j t) (hk : k ≤ s.cursor.position)
    (hfuel : s.cursor.text.utf8ByteSize ≤ s.cursor.position + fuel) :
    Surfaces i j k (g.nestedIf s) (h.chainWithin fuel t) := by
  have hifArm : Lifts k g.ifArm h.ifArm := inferInstance
  refine surfaces_bind (hifArm.surfaces hst hk) fun {arm s' t'} _ hrun hst' hk' => ?_
  have hpasses : Passes t.cursor.position h.ifArm := inferInstance
  have hlt := (hpasses.strides hst.settled (Nat.le_refl _) hrun).2 trivial
  have hfuel' : s'.cursor.text.utf8ByteSize < s'.cursor.position + fuel := by
    rw [← hst.position_eq, ← hst.text_eq] at hfuel
    rw [← hst'.position_eq, ← hst'.text_eq, (course_of_ok hst.settled hrun).text_eq]
    omega
  exact surfaces_bind (hp.after hst' hk' hfuel') fun _ _ hst'' hk'' => .ok _ hst'' hk''

/-- An `if` behind an `else` is a part of the chain. -/
theorem LiftsBranch.nestedNode [g.Lifting h] [h.Productive] [h.Striding]
    (hp : LiftsBranch k g.statement h) (hst : s.Deeper i j t) (hk : k ≤ s.cursor.position)
    (hfuel : s.cursor.text.utf8ByteSize ≤ s.cursor.position + fuel) :
    Surfaces i j k ((g.nestedIf >>= fun tree => node s.cursor.position tree) s)
      ((position >>= fun start => h.chainWithin fuel >>= fun tree => node start tree) t) := by
  rw [position_bind_apply, hst.position_eq]
  refine surfaces_bind (hp.nestedIf hst hk hfuel) fun {tree _ _} _ _ hst' hk' => ?_
  have hnode : Lifts k (node s.cursor.position tree) (node s.cursor.position tree) := inferInstance
  exact hnode.surfaces hst' hk'

/-- Any other statement opens a production, which the recursion has opened before. -/
theorem surfaces_statement [g.Lifting h] (hst : s.Deeper i j t) (hlt : j < i)
    (hlimit : i ≤ Limits.maxParseDepth) (hk : k ≤ s.cursor.position) :
    Surfaces i j k ((g.statementTree >>= fun tree => node s.cursor.position tree) s)
      (h.around.statement t) := by
  have hrest : Lifts k (g.statementTree >>= fun tree => node s.cursor.position tree)
      (h.statementTree >>= fun tree => node s.cursor.position tree) := inferInstance
  refine Lifts.surfaces_guardedRight "statement" hst hlt hlimit ?_
  rw [statementBody, position_bind_apply, (renoted_entered "statement" t).position_eq,
    hst.position_eq]
  exact hrest.surfaces (hst.enteredRight hlt "statement") hk

end Chain

section Levels

variable {m n : Nat}

/-- The recursion opens a production for each arm of a chain, and the loop does not. -/
theorem liftsBranch_nestedLevels (hmn : m ≤ n)
    (hlift : ∀ l k, l < m → l ≤ k → (nestedLevels l).Lifting (levels k)) (k : Nat) :
    LiftsBranch k (nestedLevels m).statement (levels n) := by
  induction m with
  | zero =>
    intro i j fuel s t hst hk _
    have hrefuse : Lifts k refuseDepth ((levels n).branchWithin fuel) := inferInstance
    exact hrefuse.surfaces hst hk
  | succ m ih =>
    intro i j fuel s t hst hk hfuel
    obtain ⟨n, rfl⟩ : ∃ inner, n = inner + 1 := ⟨n - 1, by omega⟩
    have hinner : (nestedLevels m).Lifting (levels n) := hlift m n (by omega) (by omega)
    have hlevel : (nestedLevels m).Lifting (levels (n + 1)) :=
      hlift m (n + 1) (by omega) (by omega)
    have hproductive : (levels (n + 1)).Productive := productive_levels (n + 1)
    have hstriding : (levels (n + 1)).Striding := striding_levels (n + 1)
    have hbranch : LiftsBranch k (nestedLevels m).statement (levels (n + 1)) :=
      ih (by omega) fun l k hl => hlift l k (by omega)
    change Surfaces i j k (guarded "statement" (nestedLevels m).nestedBody s) _
    refine Lifts.surfaces_guardedLeft "statement" hst hk fun hlimit => ?_
    have hentered := hst.enteredLeft "statement"
    rw [← (renoted_entered "statement" s).position_eq] at hk hfuel
    rw [← (renoted_entered "statement" s).text_eq] at hfuel
    generalize entered "statement" s = u at hentered hk hfuel
    -- Both sides ask for the `if` first, and the loop has entered nothing yet.
    have hcheck : Lifts k (checkKeyword .if) (checkKeyword .if) := inferInstance
    rw [nestedBody, position_bind_apply, nestedTree, branchWithin, bind_assoc]
    refine surfaces_bind (hcheck.surfaces hentered hk) fun {isIf u' t'} hrun _ hst' hk' => ?_
    have hkeeps : Keeps (checkKeyword .if) := inferInstance
    obtain ⟨hcourse, hstart⟩ := hkeeps.keeps hentered.sound.settled hrun
    rw [← hstart]
    cases isIf with
    | false => exact surfaces_statement hst' (Nat.lt_succ_of_le hst.le) hlimit hk'
    | true =>
      have hfuel' : u'.cursor.text.utf8ByteSize ≤ u'.cursor.position + fuel := by
        rwa [hcourse.text_eq, hstart]
      exact hbranch.nestedNode hst' hk' hfuel'

/-- An `if` that is read by the recursion is read by the loop. -/
theorem lifts_nestedIf (hmn : m ≤ n)
    (hlift : ∀ l k, l ≤ m → l ≤ k → (nestedLevels l).Lifting (levels k)) (k : Nat) :
    Lifts k (nestedLevels m).nestedIf (levels n).ifStatement where
  surfaces {i j s t} hst hk := by
    have hlevel : (nestedLevels m).Lifting (levels n) := hlift m n (Nat.le_refl m) hmn
    have hproductive : (levels n).Productive := productive_levels n
    have hstriding : (levels n).Striding := striding_levels n
    have hbranch : LiftsBranch k (nestedLevels m).statement (levels n) :=
      liftsBranch_nestedLevels hmn (fun l k hl => hlift l k (Nat.le_of_lt hl)) k
    have hfuel : s.cursor.text.utf8ByteSize ≤ s.cursor.position + loopBound t := by
      rw [loopBound, hst.text_eq]
      omega
    rw [ifStatement_eq_chainWithin _ hst.settled]
    exact hbranch.nestedIf hst hk hfuel

/-- A statement in which every `if` is read by the recursion lifts to one that reads chains in a
loop, if the levels below do. -/
theorem lifts_nestedTree (hmn : m ≤ n)
    (hlift : ∀ l k, l ≤ m → l ≤ k → (nestedLevels l).Lifting (levels k)) (k : Nat) :
    Lifts k (nestedLevels m).nestedTree (levels n).statementTree where
  surfaces {i j s t} hst hk := by
    have hlevel : (nestedLevels m).Lifting (levels n) := hlift m n (Nat.le_refl m) hmn
    have hplain : Lifts k (nestedLevels m).statementTree (levels n).statementTree := inferInstance
    have hcheck : Lifts k (checkKeyword .if) (checkKeyword .if) := inferInstance
    rw [nestedTree, statementTree_eq _ hst.settled]
    refine surfaces_bind (hcheck.surfaces hst hk) fun {isIf _ _} _ _ hst' hk' => ?_
    cases isIf with
    | false => exact hplain.surfaces hst' hk'
    | true => exact (lifts_nestedIf hmn hlift k).surfaces hst' hk'

/-- The recursive reading lifts to the one in loops, level by level. -/
theorem lifting_nestedLevels (hmn : m ≤ n) : (nestedLevels m).Lifting (levels n) := by
  induction m using Nat.strongRecOn generalizing n with
  | ind m ih =>
    cases m with
    | zero => exact lifting_innermost n
    | succ m =>
      obtain ⟨n, rfl⟩ : ∃ inner, n = inner + 1 := ⟨n - 1, by omega⟩
      have hlift (l k : Nat) (hl : l ≤ m) (hk : l ≤ k) : (nestedLevels l).Lifting (levels k) :=
        ih l (Nat.lt_succ_of_le hl) hk
      have hinner : (nestedLevels m).Lifting (levels n) := hlift m n (Nat.le_refl m) (by omega)
      have htree := lifts_nestedTree (Nat.le_of_succ_le_succ hmn) hlift
      refine lifting_around fun k => ?_
      unfold nestedBody statementBody
      infer_instance

end Levels

/-! ### Chains of any length -/

/-- An arm is read from one state to another: its `if`, its condition and its first branch. -/
inductive ReadsArm (g : Grammar) (s s' : ParserState) : Prop
  | intro {token : Token} {condition : Node .expression} {branch : Node .statement}
      {s₁ s₂ : ParserState} (hif : expectKeyword .if s = (.ok token, s₁))
      (hcondition : g.condition s₁ = (.ok condition, s₂))
      (hbranch : g.statement s₂ = (.ok branch, s'))

/-- Arms are read one after the other, from one state to another, with an `else` and an `if`
between them. A statement that is no `if` may stand after a last `else`. -/
inductive ReadsChain (g : Grammar) : ParserState → ParserState → Prop
  | last {s s₁ s' : ParserState} (harm : ReadsArm g s s₁)
      (helse : eatKeyword .else s₁ = (.ok false, s')) : ReadsChain g s s'
  | trailing {s s₁ s₂ s₃ s' : ParserState} {branch : Node .statement} (harm : ReadsArm g s s₁)
      (helse : eatKeyword .else s₁ = (.ok true, s₂)) (hif : checkKeyword .if s₂ = (.ok false, s₃))
      (hbranch : g.statement s₃ = (.ok branch, s')) : ReadsChain g s s'
  | arm {s s₁ s₂ s₃ s' : ParserState} (harm : ReadsArm g s s₁)
      (helse : eatKeyword .else s₁ = (.ok true, s₂)) (hif : checkKeyword .if s₂ = (.ok true, s₃))
      (hrest : ReadsChain g s₃ s') : ReadsChain g s s'

section Reads

variable {g : Grammar} {s s₁ s₂ s' : ParserState} {fuel : Nat}

/-- An arm is read where the parser for arms comes to a result. -/
theorem readsArm_iff : ReadsArm g s s' ↔ ∃ arm, g.ifArm s = (.ok arm, s') := by
  constructor
  · rintro ⟨hif, hcondition, hbranch⟩
    rw [ifArm, position_bind_apply, bind_apply, hif]
    dsimp only
    rw [bind_apply, hcondition]
    dsimp only
    rw [bind_apply, hbranch]
    exact ⟨_, rfl⟩
  · rintro ⟨arm, hrun⟩
    rw [ifArm, position_bind_apply] at hrun
    obtain ⟨token, s₁, hif, hrest⟩ := bind_eq_ok hrun
    obtain ⟨condition, s₂, hcondition, hrest⟩ := bind_eq_ok hrest
    obtain ⟨branch, s₃, hbranch, hpure⟩ := bind_eq_ok hrest
    obtain ⟨-, rfl⟩ := Prod.mk.inj hpure
    exact ⟨hif, hcondition, hbranch⟩

/-- A run is known by its result. -/
theorem eq_of_toOption {α : Type} {p : Parser α} {a : α} (h : (p s).1.toOption = some a) :
    p s = (.ok a, (p s).2) := by
  cases hp : p s with
  | mk result s' =>
    rw [hp] at h
    cases result with
    | error => cases h
    | ok b =>
      cases h
      rfl

/-- Whether an arm is read can be computed. -/
theorem readsArm_of_isSome (h : (g.ifArm s).1.toOption.isSome = true) :
    ReadsArm g s (g.ifArm s).2 := by
  obtain ⟨arm, hsome⟩ := Option.isSome_iff_exists.mp h
  exact readsArm_iff.mpr ⟨arm, eq_of_toOption hsome⟩

/-- A chain ends with an arm that no `else` follows. -/
theorem chainWithin_last (harm : ReadsArm g s s₁) (helse : eatKeyword .else s₁ = (.ok false, s')) :
    ∃ tree, g.chainWithin (fuel + 1) s = (.ok tree, s') := by
  obtain ⟨arm, hrun⟩ := readsArm_iff.mp harm
  have hbranch : g.elseBranch? (fuel + 1) s₁ = (.ok none, s') := by
    rw [elseBranch?_succ, after?, ← eatKeyword, bind_apply, helse]
    rfl
  refine ⟨arm.tree none, ?_⟩
  rw [chainWithin, bind_apply, hrun]
  dsimp only
  rw [bind_apply, hbranch]
  rfl

/-- A chain goes on behind an arm as long as what stands after its `else` is read. -/
theorem chainWithin_else {branch : Node .statement} (harm : ReadsArm g s s₁)
    (helse : eatKeyword .else s₁ = (.ok true, s₂))
    (hbranch : g.branchWithin fuel s₂ = (.ok branch, s')) :
    ∃ tree, g.chainWithin (fuel + 1) s = (.ok tree, s') := by
  obtain ⟨arm, hrun⟩ := readsArm_iff.mp harm
  have hsome : g.elseBranch? (fuel + 1) s₁ = (.ok (some branch), s') := by
    rw [elseBranch?_succ, after?, ← eatKeyword, bind_apply, helse]
    dsimp only
    rw [if_pos rfl, bind_apply, hbranch]
    rfl
  refine ⟨arm.tree (some branch), ?_⟩
  rw [chainWithin, bind_apply, hrun]
  dsimp only
  rw [bind_apply, hsome]
  rfl

/-- An arm passes a token, so fuel for the text before it leaves some for the text after it. -/
theorem ReadsArm.exists_fuel [g.Productive] [g.Striding] (h : ReadsArm g s s')
    (hs : s.cursor.Sound) (hfuel : s.cursor.text.utf8ByteSize ≤ s.cursor.position + fuel) :
    s'.cursor.Sound ∧ ∃ rest, fuel = rest + 1 ∧
      s'.cursor.text.utf8ByteSize ≤ s'.cursor.position + rest := by
  obtain ⟨arm, hrun⟩ := readsArm_iff.mp h
  have hcourse := course_of_ok hs.settled hrun
  have hpasses : Passes s.cursor.position g.ifArm := inferInstance
  have hlt := (hpasses.strides hs.settled (Nat.le_refl _) hrun).2 trivial
  have hsound := hs.course hcourse
  have hle := hsound.position_le
  rw [hcourse.text_eq] at hle ⊢
  exact ⟨hsound, fuel - 1, by omega, by omega⟩

/-- The fuel is enough for every chain. -/
theorem ReadsChain.exists_chainWithin [g.Productive] [g.Striding] (h : ReadsChain g s s')
    (hs : s.cursor.Sound) (hfuel : s.cursor.text.utf8ByteSize ≤ s.cursor.position + fuel) :
    ∃ tree, g.chainWithin fuel s = (.ok tree, s') := by
  induction h generalizing fuel with
  | last harm helse =>
    obtain ⟨-, rest, rfl, -⟩ := harm.exists_fuel hs hfuel
    exact chainWithin_last harm helse
  | @trailing s s₁ s₂ s₃ s' branch harm helse hif hbranch =>
    obtain ⟨-, rest, rfl, -⟩ := harm.exists_fuel hs hfuel
    have hlast : g.branchWithin rest s₂ = (.ok branch, s') := by
      rw [branchWithin, bind_apply, hif]
      exact hbranch
    exact chainWithin_else harm helse hlast
  | @arm s s₁ s₂ s₃ s' harm helse hif _ ih =>
    obtain ⟨hs₁, rest, rfl, hrest⟩ := harm.exists_fuel hs hfuel
    have hcourse := course_of_ok hs₁.settled helse
    have hs₂ := hs₁.course hcourse
    have hcourse' := course_of_ok hs₂.settled hif
    have hrest' : s₃.cursor.text.utf8ByteSize ≤ s₃.cursor.position + rest := by
      have hle := Nat.le_trans hcourse.le_position hcourse'.le_position
      rw [hcourse'.text_eq, hcourse.text_eq]
      omega
    obtain ⟨tree, htree⟩ := ih (hs₂.course hcourse') hrest'
    have hbranch : ∃ branch, g.branchWithin rest s₂ = (.ok branch, s') := by
      rw [branchWithin, bind_apply, hif]
      dsimp only
      rw [if_pos rfl, position_bind_apply, bind_apply, htree]
      exact ⟨_, rfl⟩
    obtain ⟨branch, hbranch⟩ := hbranch
    exact chainWithin_else harm helse hbranch

end Reads

/-- Two runs come to the same: to a result with cursors that differ in their notes alone, or to an
error. -/
inductive SameEnd {α : Type} :
    Except SyntaxError α × ParserState → Except SyntaxError α × ParserState → Prop
  | ok (a : α) {s t : ParserState} (hst : s.cursor.Renoted t.cursor) : SameEnd (.ok a, s) (.ok a, t)
  | error (e : SyntaxError) (s t : ParserState) : SameEnd (.error e, s) (.error e, t)

/-- Runs of which one lies deeper than the other come to the same, unless one of them is nested too
deep. -/
theorem SameEnd.of_surfaces {α : Type} {i j n : Nat} {x y : Except SyntaxError α × ParserState}
    (h : Surfaces i j n x y) (hdeep : ∀ e, x.1 = .error e → ¬ e.IsTooDeep) : SameEnd x y := by
  cases h with
  | tooDeep found span s y => exact absurd ⟨found, span, rfl⟩ (hdeep _ rfl)
  | ok a hst => exact .ok a hst.cursor
  | error e s t => exact .error e s t

/-- An `if` is read in a loop as the recursion over its `else` branches reads it: unless the
recursion is nested too deep, both come to the same tree with the same cursor, or to the same
error. A chain of any number of arms is read in the loop if each arm can be read where it stands,
no deeper than the chain itself. -/
theorem ifStatement_as_nestedIf (n : Nat) {s : ParserState} (hs : s.cursor.Sound) :
    ((∀ e, ((nestedLevels n).nestedIf s).1 = .error e → ¬ e.IsTooDeep) →
      SameEnd ((nestedLevels n).nestedIf s) ((levels n).ifStatement s)) ∧
    ∀ s', (levels n).ReadsChain s s' → ∃ tree, (levels n).ifStatement s = (.ok tree, s') := by
  have hproductive : (levels n).Productive := productive_levels n
  have hstriding : (levels n).Striding := striding_levels n
  constructor
  · have hlifts := lifts_nestedIf (Nat.le_refl n) (fun l k _ hlk => lifting_nestedLevels hlk) 0
    have hself : s.Deeper s.depth s.depth s := ⟨.refl _, hs, rfl, rfl, Nat.le_refl _, rfl⟩
    exact .of_surfaces (hlifts.surfaces hself (Nat.zero_le _))
  · intro s' h
    have hfuel : s.cursor.text.utf8ByteSize ≤ s.cursor.position + loopBound s := by
      rw [loopBound]
      omega
    rw [ifStatement_eq_chainWithin _ hs.settled]
    exact h.exists_chainWithin hs hfuel

/-- A chain of two arms and a last branch comes to the same tree in either reading. -/
theorem ifStatement_as_nestedIf_two_arms :
    let s := ParserState.ofText "if (a) b(); else if (c) d();"
    SameEnd ((nestedLevels 6).nestedIf s) ((levels 6).ifStatement s) ∧
      ∃ tree s', (levels 6).ifStatement s = (.ok tree, s') := by
  intro s
  have hs : s.cursor.Sound := (Cursor.sound_ofText _ _).withJournal _
  obtain ⟨hsame, hchain⟩ := ifStatement_as_nestedIf 6 hs
  refine ⟨hsame fun e he => ?_, ?_⟩
  · have hok : ((nestedLevels 6).nestedIf s).1.toOption.isSome = true := by decide +kernel
    rw [he] at hok
    cases hok
  · let s₁ := ((levels 6).ifArm s).2
    let s₂ := (eatKeyword .else s₁).2
    let s₃ := (checkKeyword .if s₂).2
    let s₄ := ((levels 6).ifArm s₃).2
    have hfirst : (levels 6).ReadsArm s s₁ := readsArm_of_isSome (by decide +kernel)
    have helse : eatKeyword .else s₁ = (.ok true, s₂) := eq_of_toOption (by decide +kernel)
    have hif : checkKeyword .if s₂ = (.ok true, s₃) := eq_of_toOption (by decide +kernel)
    have hsecond : (levels 6).ReadsArm s₃ s₄ := readsArm_of_isSome (by decide +kernel)
    have hlast : eatKeyword .else s₄ = (.ok false, (eatKeyword .else s₄).2) :=
      eq_of_toOption (by decide +kernel)
    obtain ⟨tree, htree⟩ := hchain _ (.arm hfirst helse hif (.last hsecond hlast))
    exact ⟨tree, _, htree⟩

end Grammar

end JavaSyntax
