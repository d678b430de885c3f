import JavaSyntax.Proofs.Syntax.Budget

/-!
# Scans

A scan is the part of a question that looks for the answer. It keeps to its budget while it
passes annotations and the arguments of types, but a name may be as long as it likes, and so
may modifiers and dimensions. What a scan passes behind its budget are the tokens of those.
-/

namespace JavaSyntax

open JavaSyntax.Parser (Step)
open Work

namespace Lookahead

/-! ### Names, groups and annotations -/

section Groups

variable {start : Cursor} {whole : Prop}

/-- Dimensions are passed without asking, however many there are. -/
theorem meets_skipDimensions :
    Meets start (Thrifty start whole) skipDimensions fun _ => Thrifty start whole := by
  refine .rounds (fun any => ?_) false
  refine (meets_checkPair Thrifty.lasting .leftBracket .rightBracket).question ?_
    (.pure fun _ _ => id)
  exact (meets_bump_first .leftBracket .rightBracket rfl (by decide)).bind fun _ =>
    (meets_bump_free .rightBracket rfl).bind fun _ => .pure fun _ _ => id

/-- A group is passed token by token while the budget lasts. -/
theorem meets_skipBalanced :
    Meets start (Thrifty start whole) skipBalanced fun _ => Thrifty start whole := by
  refine .rounds (fun depth => ?_) 0
  refine meets_exhausted.question (.pure fun _ _ => id) ?_
  have hlasting : Lasting start fun σ c =>
      Thrifty start whole σ c ∧ σ.consumed ≤ Limits.maxLookaheadTokens :=
    ⟨fun h => h.1.stopped, fun h hlooked => ⟨h.1.looked hlooked, h.2⟩⟩
  refine (meets_currentKind hlasting).bind fun kind => ?_
  have hbump (hkind : kind ≠ .endOfInput) :
      Meets start (fun σ c => (Thrifty start whole σ c ∧
        σ.consumed ≤ Limits.maxLookaheadTokens) ∧ At 0 kind σ c) bump
        fun _ => Thrifty start whole :=
    (meets_bump hkind).strengthen fun _ _ h => ⟨⟨h.1.1, h.2⟩, .inr h.1.2⟩
  split
  -- the three kinds that open a group, then the three that close one
  iterate 3 exact (hbump (by decide)).bind fun _ => .pure fun _ _ => id
  iterate 3
    refine (hbump (by decide)).bind fun _ => ?_
    exact .ite (fun _ => .pure fun _ _ => id) fun _ => .pure fun _ _ => id
  · exact .pure fun _ _ h => h.1.1
  · rename_i hend
    exact (hbump hend).bind fun _ => .pure fun _ _ => id

/-- A name is passed without asking, however long it is. -/
theorem meets_skipQualifiedName :
    Meets start (Thrifty start whole) skipQualifiedName fun _ => Thrifty start whole := by
  refine (meets_eat_free .identifier rfl).question ?_ (.pure fun _ _ => id)
  refine .rounds (fun _ => ?_) ()
  refine (meets_checkPair Thrifty.lasting .dot .identifier).question ?_ (.pure fun _ _ => id)
  exact (meets_bump_first .dot .identifier rfl (by decide)).bind fun _ =>
    (meets_bump_free .identifier rfl).bind fun _ => .pure fun _ _ => id

/-- Where an annotation is found, the lookahead stands at its `@`. -/
theorem meets_atAnnotation :
    Meets start (Thrifty start whole) atAnnotation fun found =>
      bif found then fun σ c => Thrifty start whole σ c ∧ At 0 .at σ c
      else Thrifty start whole := by
  refine (meets_check Thrifty.lasting .at).question ?_ (.pure fun _ _ => id)
  exact meets_next Thrifty.lasting.at (fun _ _ h => h.1) (· != .keyword .interface)

/-- An annotation is passed within the budget, but for its name. -/
theorem meets_skipAnnotation :
    Meets start (fun σ c => Thrifty start whole σ c ∧ At 0 .at σ c) skipAnnotation
      fun _ => Thrifty start whole := by
  refine (meets_bump_free .at rfl).bind fun _ => ?_
  refine meets_skipQualifiedName.question ?_ (.pure fun _ _ => id)
  refine (meets_check Thrifty.lasting .leftParen).question ?_ (.pure fun _ _ => id)
  exact meets_skipBalanced.strengthen fun _ _ h => h.1

/-- Annotations are passed within the budget, but for their names. -/
theorem meets_skipAnnotations :
    Meets start (Thrifty start whole) skipAnnotations fun _ => Thrifty start whole := by
  refine .rounds (fun _ => ?_) ()
  refine meets_atAnnotation.question ?_ (.pure fun _ _ => id)
  exact meets_skipAnnotation.question (.pure fun _ _ => id) (.pure fun _ _ => id)

/-- Modifiers are passed without asking, but for arguments of annotations. -/
theorem meets_skipModifiers :
    Meets start (Thrifty start whole) skipModifiers fun _ => Thrifty start whole := by
  refine .rounds (fun any => ?_) false
  refine (meets_eat_free (.keyword .final) rfl).question (.pure fun _ _ => id) ?_
  refine meets_atAnnotation.question ?_ (.pure fun _ _ => id)
  exact meets_skipAnnotation.question (.pure fun _ _ => id) (.pure fun _ _ => id)

end Groups

/-! ### Types -/

/-- A lookahead that is asked to pass something may go on after a "yes". -/
def Answered (start : Cursor) (found : Bool) : LookaheadState → Cursor → Prop :=
  bif found then Thrifty start False else fun _ => Stopped start

section Types

variable {start : Cursor} {passType : Lookahead Bool}

/-- An argument of a type is passed as types are. -/
theorem meets_skipTypeArgument (h : Meets start (Thrifty start False) passType (Answered start)) :
    Meets start (Thrifty start False) (skipTypeArgument passType) (Answered start) := by
  refine (meets_eat_free .question rfl).question ?_ h
  refine (meets_currentKind Thrifty.lasting).bind fun kind => ?_
  split
  · exact (meets_bump_free (.keyword .extends) rfl).bind fun _ => h
  · exact (meets_bump_free (.keyword .super) rfl).bind fun _ => h
  · exact .pure fun _ _ h => h.1

/-- The budget is asked for before each argument, and a comma is passed only before that. -/
theorem meets_skipTypeArguments
    (h : Meets start (Thrifty start False) passType (Answered start)) :
    Meets start (fun σ c => Thrifty start False σ c ∧ At 0 .less σ c) (skipTypeArguments passType)
      (Answered start) := by
  refine (meets_bump_free .less rfl).bind fun _ => ?_
  refine (meets_modify ?_ ?_).bind fun _ => ?_
  · exact fun _ => rfl
  · exact fun _ => rfl
  refine meets_bumpClosingAngle.question (.pure fun _ _ => id) ?_
  refine (Meets.loop (I := fun _ => Strained start False) (fun _ _ _ h => h.stopped)
    (fun _ => ?_) ()).strengthen fun _ _ => Thrifty.strained
  refine meets_exhausted.question (.pure fun _ _ h => h.stopped) ?_
  refine (Meets.demand (P := Thrifty start False) meets_skipAnnotations
    (.pure fun _ _ h => h.stopped) ?_).strengthen fun _ _ h => h.1.thrifty h.2
  refine (meets_skipTypeArgument h).demand (.pure fun _ _ => id) ?_
  refine (meets_eat .comma (by decide)).question (.pure fun _ _ => id) ?_
  refine meets_bumpClosingAngle.bind fun closed => .pure fun σ c h => ?_
  cases closed with
  | true => exact h
  | false => exact h.stopped

/-- Arguments are passed within the budget, if there are any. -/
theorem meets_skipOptionalArguments
    (h : Meets start (Thrifty start False) passType (Answered start)) :
    Meets start (Thrifty start False) (skipOptionalArguments passType) (Answered start) :=
  (meets_check Thrifty.lasting .less).question (meets_skipTypeArguments h) (.pure fun _ _ => id)

/-- Where another segment is found, the lookahead stands at its dot. -/
theorem meets_atSegment :
    Meets start (Thrifty start False) atSegment fun found =>
      bif found then fun σ c => Thrifty start False σ c ∧ At 0 .dot σ c
      else Thrifty start False := by
  refine (meets_check Thrifty.lasting .dot).question ?_ (.pure fun _ _ => id)
  exact meets_next Thrifty.lasting.at (fun _ _ h => h.1) fun kind =>
    kind == .identifier || kind == .at

/-- The segments of a class type are passed without asking, and their arguments within the
budget. -/
theorem meets_skipClassType (h : Meets start (Thrifty start False) passType (Answered start)) :
    Meets start (fun σ c => Thrifty start False σ c ∧ At 0 .identifier σ c) (skipClassType passType)
      (Answered start) := by
  refine (meets_bump_free .identifier rfl).bind fun _ => ?_
  refine (meets_skipOptionalArguments h).demand (.pure fun _ _ => id) ?_
  refine .rounds (fun _ => ?_) ()
  refine meets_atSegment.question ?_ (.pure fun _ _ => id)
  refine (meets_bump_free .dot rfl).bind fun _ => ?_
  refine meets_skipAnnotations.demand (.pure fun _ _ h => h.stopped) ?_
  refine (meets_eat_free .identifier rfl).demand (.pure fun _ _ h => h.stopped) ?_
  exact (meets_skipOptionalArguments h).question (.pure fun _ _ => id) (.pure fun _ _ => id)

/-- A type without dimensions is passed within the budget, but for names. -/
theorem meets_skipElementType (h : Meets start (Thrifty start False) passType (Answered start)) :
    Meets start (Thrifty start False) (skipElementType passType) (Answered start) := by
  refine (meets_currentKind Thrifty.lasting).bind fun kind => ?_
  split
  · refine .ite (fun hprimitive => ?_) fun _ => .pure fun _ _ h => h.1.stopped
    refine (meets_bump_free _ ?_).bind fun _ => .pure fun _ _ => id
    exact TokenKind.isFree_of_isPrimitiveType hprimitive
  · exact meets_skipClassType h
  · exact .pure fun _ _ h => h.1.stopped

/-- A type is passed within the budget, but for names and dimensions, however deep it may be
nested. -/
theorem meets_skipTypeWithin (n : Nat) :
    Meets start (Thrifty start False) (skipTypeWithin n) (Answered start) := by
  induction n with
  | zero => exact .pure fun _ _ h => h.stopped
  | succ n ih =>
    refine meets_skipAnnotations.demand (.pure fun _ _ h => h.stopped) ?_
    refine (meets_skipElementType ih).demand (.pure fun _ _ => id) ?_
    refine meets_skipDimensions.question ?_ (.pure fun _ _ => id)
    refine (meets_modify ?_ ?_).bind fun _ => .pure fun _ _ => id
    · exact fun _ => rfl
    · exact fun _ => rfl

/-- A type is passed within the budget, but for names and dimensions. -/
theorem meets_skipType : Meets start (Thrifty start False) skipType (Answered start) :=
  meets_skipTypeWithin _

end Types

/-! ### The questions of the grammar -/

/-- A lookahead goes back to where it started, whatever it comes to. -/
theorem run_apply {α : Type} (w : Lookahead α) (s : ParserState) :
    w.run s = ((w {} s).1.map Prod.fst, (w {} s).2.restorePosition s.cursor.position) := by
  have hrun : w.run s = Parser.andThen (·.restorePosition s.cursor.position)
      (Prod.fst <$> w {}) s := rfl
  rw [hrun, Parser.andThen, map_apply]

/-- What is made of the answer of a lookahead is the answer of a lookahead. -/
theorem map_run {α β : Type} (g : α → β) (w : Lookahead α) : g <$> w.run = (g <$> w).run := by
  funext s
  have hmap : (g <$> w) {} s = ((w {} s).1.map fun r => (g r.1, r.2), (w {} s).2) := by
    have hfirst : (g <$> w) {} = (fun r => (g r.1, r.2)) <$> w {} := by
      rw [map_eq_pure_bind, map_eq_pure_bind]
      rfl
    rw [hfirst, map_apply]
  rw [map_apply, run_apply, run_apply, hmap]
  rcases w {} s with ⟨_ | _, _⟩ <;> rfl

/-- The questions that a parser asks about the tokens ahead before it reads them. -/
inductive Question where
  | localVariable | enhancedFor | pattern | typePrimary
deriving DecidableEq, Repr

namespace Question

/-- How a question is asked. -/
def ask : Question → Parser Bool
  | .localVariable => Parser.atLocalVariable
  | .enhancedFor => Parser.atEnhancedFor
  | .pattern => Parser.atPattern
  | .typePrimary => Option.isSome <$> Parser.typePrimary?

/-- What is looked for when a generic type or an array type has been passed. -/
def primaryAhead : Lookahead (Option TypePrimary) := do
  if !(← skipType) then return none
  let s ← get
  if !(s.sawTypeArguments || s.sawDimensions) then return none
  let first ← kindAt 0
  let second ← kindAt 1
  if first = .colonColon then return some .methodReference
  if first = .dot ∧ second = .keyword .class ∧ s.sawDimensions then return some .classLiteral
  return none

/-- How the answer to a question is found, without going back afterwards. -/
def scan : Question → Lookahead Bool
  | .localVariable => do if ← skipType then check .identifier else return false
  | .enhancedFor => do
    let _ ← skipModifiers
    if ← skipType then checkPair .identifier .colon else return false
  | .pattern => do
    if ← skipModifiers then return true
    if ← skipType then
      let next ← currentKind
      return next == .identifier || next == .leftParen
    else return false
  | .typePrimary => Option.isSome <$> primaryAhead

/-- A question is answered by its scan. -/
theorem ask_eq (q : Question) : q.ask = q.scan.run := by
  cases q with
  | localVariable => rfl
  | enhancedFor => rfl
  | pattern => rfl
  | typePrimary => exact map_run Option.isSome primaryAhead

end Question

section Questions

variable {start : Cursor}

/-- A lookahead at a token that is no `>` stands outside of tokens. -/
theorem Thrifty.outside {σ : LookaheadState} {c : Cursor} {kind : TokenKind}
    (h : Thrifty start False σ c) (hat : At 0 kind σ c) (hkind : kind ≠ .greater) :
    Thrifty start True σ c := by
  refine ⟨h.toRanges, h.begun, fun _ => ?_⟩
  by_contra hpending
  exact hkind (hat.inside (Nat.pos_of_ne_zero hpending))

/-- Where the answer is "yes", a scan stands outside of tokens and has kept to its budget. -/
def Decided (start : Cursor) (found : Bool) : LookaheadState → Cursor → Prop :=
  bif found then Thrifty start True else fun _ => Stopped start

/-- What stands after a type is looked at within the budget. -/
theorem meets_primaryAhead :
    Meets start (Thrifty start False) Question.primaryAhead fun found =>
      Decided start found.isSome := by
  refine meets_skipType.demand (.pure fun _ _ => id) ?_
  refine Meets.bind (R := fun _ => Thrifty start False) (fun σ s h => h) fun s => ?_
  refine .ite (fun _ => .pure fun _ _ h => h.stopped) fun _ => ?_
  refine (meets_kindAt (Nat.zero_le 1) Thrifty.lasting).bind fun first => ?_
  refine (meets_kindAt (Nat.le_refl 1) Thrifty.lasting.at).bind fun second => ?_
  refine .ite (fun hfirst => ?_) fun _ => .ite (fun hfirst => ?_) fun _ => ?_
  · exact .pure fun _ _ h => h.1.1.outside h.1.2 (by rw [hfirst]; decide)
  · exact .pure fun _ _ h => h.1.1.outside h.1.2 (by rw [hfirst.1]; decide)
  · exact .pure fun _ _ h => h.1.1.stopped

/-- A question that is answered with "yes" only at a kind that no other token has as a part. -/
theorem Meets.decided {w : Lookahead Bool} {P : LookaheadState → Cursor → Prop}
    (kind : TokenKind) (hkind : kind ≠ .greater)
    (hw : Meets start P w fun found => bif found then fun σ c => Thrifty start False σ c ∧
      At 0 kind σ c else Thrifty start False) : Meets start P w (Decided start) := by
  refine hw.weaken fun found σ c h => ?_
  cases found with
  | true => exact h.1.outside h.2 hkind
  | false => exact h.stopped

/-- A question that starts with a type is decided by what comes after it. -/
theorem meets_typeThen {w : Lookahead Bool}
    (hw : Meets start (Thrifty start False) w (Decided start)) :
    Meets start (Thrifty start True)
      (skipType >>= fun found => if found = true then w else pure false) (Decided start) := by
  refine Meets.strengthen (P := Thrifty start False) ?_ fun _ _ => Thrifty.mono
  exact meets_skipType.question hw (.pure fun _ _ => id)

/-- Every scan keeps to its budget, but for free tokens. -/
theorem Question.meets_scan (q : Question) :
    Meets start (Thrifty start True) q.scan (Decided start) := by
  cases q with
  | localVariable =>
    exact meets_typeThen ((meets_check Thrifty.lasting .identifier).decided .identifier (by decide))
  | enhancedFor =>
    refine meets_skipModifiers.bind fun _ => meets_typeThen ?_
    refine Meets.decided .identifier (by decide) ?_
    refine (meets_checkPair Thrifty.lasting .identifier .colon).weaken fun found σ c h => ?_
    cases found with
    | true => exact h.1
    | false => exact h
  | pattern =>
    refine meets_skipModifiers.question (.pure fun _ _ => id) (meets_typeThen ?_)
    refine (meets_currentKind Thrifty.lasting).bind fun kind => .pure fun σ c h => ?_
    by_cases hkind : kind = .greater
    · rw [hkind]
      exact h.1.stopped
    · cases kind == .identifier || kind == .leftParen with
      | true => exact h.1.outside h.2 hkind
      | false => exact h.1.stopped
  | typePrimary =>
    have hmap : Question.scan .typePrimary = Question.primaryAhead >>= fun found =>
        Pure.pure found.isSome := map_eq_pure_bind ..
    rw [hmap]
    refine (meets_primaryAhead.bind fun found => .pure fun _ _ => id).strengthen ?_
    exact fun _ _ => Thrifty.mono

/-! ### Beyond the budget -/

/-- Behind the budget two free tokens follow. -/
def GoesOnFreely (start c : Cursor) : Prop :=
  ∀ i, Limits.maxLookaheadTokens < i → i ≤ Limits.maxLookaheadTokens + 2 →
    ∃ t, c.buffer[start.position + i]? = some t ∧ t.kind.isFree = true

/-- A token that was passed is in the buffer, at its place. -/
theorem getElem?_passedSince {c : Cursor} {i : Nat} {t : Token}
    (ht : (passedSince start c)[i]? = some t) : c.buffer[start.position + i]? = some t := by
  rw [passedSince, List.getElem?_drop, Cursor.passed, List.getElem?_take] at ht
  split at ht
  · rwa [Array.getElem?_toList] at ht
  · cases ht

/-- If more free tokens than two were begun behind the budget, two of them follow there. -/
theorem goesOnFreely_of_isPrefix {c : Cursor} {ts : List Token}
    (hts : ts <+: passedSince start c)
    (hfree : ∀ t ∈ ts.drop (Limits.maxLookaheadTokens + 1), t.kind.isFree = true)
    (hlength : Limits.maxLookaheadTokens + 2 < ts.length) : GoesOnFreely start c := by
  intro i hlt hle
  have hi : i < ts.length := by omega
  have hget : ts[i]? = some ts[i] := List.getElem?_eq_getElem hi
  refine ⟨ts[i], ?_, hfree _ ?_⟩
  · obtain ⟨us, hus⟩ := hts
    apply getElem?_passedSince
    rw [← hus, List.getElem?_append_left hi, hget]
  · rw [List.mem_iff_getElem?]
    refine ⟨i - (Limits.maxLookaheadTokens + 1), ?_⟩
    rw [List.getElem?_drop, Nat.add_sub_of_le hlt, hget]

/-- As many tokens were passed as the cursor has moved places. -/
theorem length_passedSince {c : Cursor} (h : c.Settled) :
    (passedSince start c).length = c.position - start.position := by
  rw [passedSince, List.length_drop, h.length_passed]

/-- A scan that starts at a place of a parse goes beyond the budget for free tokens only. Where
the answer is "yes", it has passed tokens within its budget and then only free ones. However it
ends, the tokens that it has passed behind its budget are free, except perhaps for the last one,
and it has read at most two tokens further. So unless two free tokens follow behind the
budget, a scan that answers "yes" has passed at most two tokens more than the budget allows, and
no scan reads a token more than four places behind it. -/
theorem budget_exceeded_freely (q : Question) {s s' : ParserState} (hs : s.cursor.Settled)
    {r : Except SyntaxError (Bool × LookaheadState)} (hrun : q.scan {} s = (r, s')) :
    q.ask s = (r.map Prod.fst, s'.restorePosition s.cursor.position) ∧
    (∀ σ, r = .ok (true, σ) →
      (passedSince s.cursor s'.cursor).length ≤ σ.consumed ∧
      σ.consumed ≤ weight (passedSince s.cursor s'.cursor) ∧
      Affordable σ.consumed (passedSince s.cursor s'.cursor)) ∧
    Stopped s.cursor s'.cursor ∧
    (¬ GoesOnFreely s.cursor s'.cursor →
      (∀ σ, r = .ok (true, σ) →
        (passedSince s.cursor s'.cursor).length ≤ Limits.maxLookaheadTokens + 2) ∧
      s'.cursor.buffer.size ≤
        max s.cursor.buffer.size (s.cursor.position + Limits.maxLookaheadTokens + 5)) := by
  have hmeets := q.meets_scan {} s (.initial hs)
  rw [hrun] at hmeets
  have hyes (σ : LookaheadState) (hr : r = .ok (true, σ)) : Thrifty s.cursor True σ s'.cursor := by
    rw [hr] at hmeets
    exact hmeets
  have hstopped : Stopped s.cursor s'.cursor := by
    rcases r with _ | ⟨_ | _, σ⟩
    · exact hmeets
    · exact hmeets
    · exact (hyes σ rfl).stopped
  refine ⟨?_, ?_, hstopped, fun hfreely => ⟨?_, ?_⟩⟩
  · rw [q.ask_eq, run_apply, hrun]
  · intro σ hr
    obtain ⟨ts, hbegun, hlength, hweight, haffordable⟩ := (hyes σ hr).begun
    rw [(hyes σ hr).pending_eq trivial] at hbegun hweight haffordable
    cases hbegun
    exact ⟨hlength, hweight, haffordable⟩
  · intro σ hr
    obtain ⟨ts, hbegun, -, -, haffordable⟩ := (hyes σ hr).begun
    by_contra hlength
    exact hfreely (goesOnFreely_of_isPrefix List.prefix_rfl
      (haffordable.isFree_of_isPrefix hbegun.isPrefix) (by omega))
  · by_contra hsize
    have hle := hstopped.size_le
    have hlength : (passedSince s.cursor s'.cursor).dropLast.length =
        s'.cursor.position - s.cursor.position - 1 := by
      rw [List.length_dropLast, length_passedSince hstopped.settled]
    exact hfreely (goesOnFreely_of_isPrefix (List.dropLast_prefix _) hstopped.isFree (by omega))

/-- A `>>` is counted as two tokens, and here the second of them is the first one behind the
budget. The answer is "yes" all the same, since the name that comes next is looked at for free. -/
theorem budget_kept_inside_shift :
    ∃ s σ s', s = ParserState.ofText (.ofList ("a<".toList ++
        (List.replicate 22 "b<b<b<b>>>,".toList).flatten ++ "b,b,b,b,b<b>> d".toList)) ∧
      Question.localVariable.scan {} s = (.ok (true, σ), s') ∧
      σ.consumed = Limits.maxLookaheadTokens + 1 ∧
      (passedSince s.cursor s'.cursor).length ≤ Limits.maxLookaheadTokens + 1 ∧
      Limits.maxLookaheadTokens + 1 ≤ weight (passedSince s.cursor s'.cursor) ∧
      Affordable (Limits.maxLookaheadTokens + 1) (passedSince s.cursor s'.cursor) ∧
      Stopped s.cursor s'.cursor ∧ s'.cursor.buffer.size ≤ Limits.maxLookaheadTokens + 5 := by
  generalize hs : ParserState.ofText (.ofList ("a<".toList ++
    (List.replicate 22 "b<b<b<b>>>,".toList).flatten ++ "b,b,b,b,b<b>> d".toList)) = s
  have hsettled : s.cursor.Settled := by
    rw [← hs]
    exact (Cursor.settled_ofText _ _).withJournal _
  have hstart : s.cursor.buffer.size = 0 ∧ s.cursor.position = 0 := by
    rw [← hs]
    exact ⟨rfl, rfl⟩
  have hdecided : (fun outcome : Except SyntaxError (Bool × LookaheadState) × ParserState =>
      (outcome.1.toOption.map fun r => (r.1, r.2.consumed), outcome.2.cursor.buffer.size))
        (Question.localVariable.scan {} s) =
      (some (true, Limits.maxLookaheadTokens + 1), 213) := by
    rw [← hs]
    -- the characters are given to the lexer as they are, not as a text that has to be decoded
    simp only [ParserState.ofText, Cursor.ofText, Lexer.ofText, String.toList_ofList]
    decide +kernel
  rcases hrun : Question.localVariable.scan {} s with ⟨_ | ⟨found, σ⟩, s'⟩
  · rw [hrun] at hdecided
    cases (Prod.mk.inj hdecided).1
  rw [hrun] at hdecided
  obtain ⟨hanswer, hsize⟩ := Prod.mk.inj hdecided
  obtain ⟨rfl, hconsumed⟩ := Prod.mk.inj (Option.some.inj hanswer)
  obtain ⟨-, hyes, hstopped, hkept⟩ := budget_exceeded_freely .localVariable hsettled hrun
  obtain ⟨hlength, hweight, haffordable⟩ := hyes σ rfl
  rw [hconsumed] at hlength hweight haffordable
  have hfew : ¬ GoesOnFreely s.cursor s'.cursor := by
    intro hfreely
    obtain ⟨t, ht, -⟩ := hfreely _ (Nat.lt_succ_self _) (Nat.le_succ _)
    obtain ⟨hlt, -⟩ := Array.getElem?_eq_some_iff.mp ht
    rw [hsize, hstart.2] at hlt
    exact absurd hlt (by decide)
  have hread := (hkept hfew).2
  rw [hstart.1, hstart.2] at hread
  exact ⟨s, σ, s', rfl, hrun, hconsumed, hlength, hweight, haffordable, hstopped,
    Nat.le_trans hread (by decide)⟩

end Questions

end Lookahead

end JavaSyntax
