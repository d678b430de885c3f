import JavaSyntax.Proofs.Syntax.Pace
import JavaSyntax.Proofs.Token.Groups

/-!
# Recognizing types by their kinds

Whether a type stands at the start of some tokens depends on their kinds alone. It is decided
here by functions on lists of kinds, in which every closing angle counts for itself. They have
no budget and no tokens to take apart, so they are easier to reason about than the parser of
types and than the lookahead that passes types, which both do the same as they do.
-/

namespace JavaSyntax

open JavaSyntax.Parser (Step)

/-- Passes a phrase at the start of some kinds. What is left comes out, if the phrase is there. -/
abbrev Recognizer := List TokenKind → Option (List TokenKind)

/-- A step of a repetition: it passes something, or says what the repetition as a whole comes to. -/
abbrev RecognizerStep := List TokenKind → Step (List TokenKind) (Option (List TokenKind))

/-! ### What comes behind -/

/-- Some kinds come behind others, and no group is closed between that was not opened there. -/
def Within (ks ls : List TokenKind) : Prop :=
  ∃ front d, ks = front ++ ls ∧ openGroups 0 front = some d

namespace Within

variable {ks ls ms : List TokenKind} {k : TokenKind}

/-- Everything comes behind itself. -/
theorem refl (ks : List TokenKind) : Within ks ks := ⟨[], 0, rfl, rfl⟩

/-- What comes behind comes behind what is before that. -/
theorem trans (h : Within ks ls) (h' : Within ls ms) : Within ks ms := by
  obtain ⟨front, d, rfl, hfront⟩ := h
  obtain ⟨front', d', rfl, hfront'⟩ := h'
  refine ⟨front ++ front', d' + d, (List.append_assoc _ _ _).symm, ?_⟩
  have hadd := openGroups_add hfront' d
  rw [Nat.zero_add] at hadd
  rw [openGroups_append, hfront, Option.bind_some, hadd]

/-- A kind that closes nothing is passed. -/
theorem tail (h : Within ks (k :: ls)) (hk : k.closesGroup = false) : Within ks ls := by
  refine h.trans ⟨[k], if k.opensGroup then 1 else 0, rfl, ?_⟩
  cases hopens : k.opensGroup <;> simp [openGroups, hopens, hk]

end Within

/-! ### Repetition -/

namespace Recognizer

/-- Repeats a step at most so many times. -/
def repeatFor (step : RecognizerStep) : Nat → Recognizer
  | 0, _ => none
  | n + 1, ks =>
    match step ks with
    | .again rest => repeatFor step n rest
    | .done result => result

/-- Repeats a step until it is done. Every step but the last passes something. -/
def repeated (step : RecognizerStep) : Recognizer := fun ks => repeatFor step (ks.length + 1) ks

/-- A step that passes something whenever it goes on. -/
def Shortens (step : RecognizerStep) : Prop :=
  ∀ ks rest, step ks = .again rest → rest.length < ks.length

variable {step : RecognizerStep} {ks rest : List TokenKind}

/-- A step that shortens is done before the list is used up, so a larger bound makes no
difference. -/
theorem repeatFor_eq (h : Shortens step) {n : Nat} (hn : ks.length < n) :
    repeatFor step n ks = repeated step ks := by
  have hsame (m n : Nat) : ∀ ks : List TokenKind, ks.length < m → ks.length < n →
      repeatFor step m ks = repeatFor step n ks := by
    induction m generalizing n with
    | zero => exact fun ks hm => absurd hm (Nat.not_lt_zero _)
    | succ m ih =>
      intro ks hm hn
      obtain ⟨n, rfl⟩ := Nat.exists_eq_succ_of_ne_zero (Nat.ne_zero_of_lt hn)
      rw [repeatFor, repeatFor]
      cases hstep : step ks with
      | done result => rfl
      | again rest =>
        have hlt := h ks rest hstep
        exact ih n rest (by omega) (by omega)
  exact hsame n _ ks hn (Nat.lt_succ_self _)

/-- A repetition goes on behind what its step has passed. -/
theorem repeated_eq (h : Shortens step) (ks : List TokenKind) :
    repeated step ks = match step ks with
      | .again rest => repeated step rest
      | .done result => result := by
  rw [repeated, repeatFor]
  cases hstep : step ks with
  | done result => rfl
  | again rest => exact repeatFor_eq h (h ks rest hstep)

/-- A step that is done at once is not repeated. -/
theorem repeated_of_done {result : Option (List TokenKind)} (h : step ks = .done result) :
    repeated step ks = result := by
  rw [repeated, repeatFor, h]

/-- What holds of all that a repetition passes: it is put together from what the steps pass. -/
theorem repeated_induction {P : List TokenKind → List TokenKind → Prop} (h : Shortens step)
    (hrun : repeated step ks = some rest)
    (hagain : ∀ ks next rest, step ks = .again next → P next rest → P ks rest)
    (hdone : ∀ ks rest, step ks = .done (some rest) → P ks rest) : P ks rest := by
  induction hn : ks.length using Nat.strongRecOn generalizing ks with
  | ind n ih =>
    rw [repeated_eq h] at hrun
    cases hstep : step ks with
    | done result =>
      rw [hstep] at hrun
      exact hdone ks rest (hstep.trans (congrArg Step.done hrun))
    | again next =>
      rw [hstep] at hrun
      exact hagain ks next rest hstep (ih _ (hn ▸ h ks next hstep) hrun rfl)

/-! ### Names, groups and annotations -/

/-- Passes dots with names. -/
def dotted : List TokenKind → List TokenKind
  | .dot :: .identifier :: ks => dotted ks
  | ks => ks

/-- Passes a name with dots. -/
def name : Recognizer
  | .identifier :: ks => some (dotted ks)
  | _ => none

/-- Passes what is left of a group, where so many groups are open. -/
def group : Nat → Recognizer
  | _, [] => none
  | depth, k :: ks =>
    match Lookahead.balance depth k with
    | .again depth => group depth ks
    | .done _ => some ks

/-- Whether an annotation comes next; `@interface` starts a declaration instead. -/
def atAnnotation : List TokenKind → Bool
  | .at :: .keyword .interface :: _ => false
  | .at :: _ => true
  | _ => false

/-- Passes a group, if one comes next in parentheses. -/
def optionalGroup : Recognizer
  | .leftParen :: ks => group 0 (.leftParen :: ks)
  | ks => some ks

/-- Passes an annotation behind its `@`. -/
def annotationUse (ks : List TokenKind) : Option (List TokenKind) := (name ks).bind optionalGroup

/-- What is left of a broken annotation behind its `@` and its name, if the name is in order. -/
def broken (ks : List TokenKind) : List TokenKind :=
  match name ks with
  | none => ks
  | some _ => []

/-- Passes an annotation if one comes next. -/
def annotationStep (ks : List TokenKind) : Step (List TokenKind) (Option (List TokenKind)) :=
  if atAnnotation ks then
    match annotationUse ks.tail with
    | some rest => .again rest
    | none => .done none
  else .done (some ks)

/-- Passes annotations, none of which is broken. -/
def annotations : Recognizer := repeated annotationStep

/-! ### Types -/

/-- Passes pairs of empty brackets. -/
def dimensions : List TokenKind → List TokenKind
  | .leftBracket :: .rightBracket :: ks => dimensions ks
  | ks => ks

section Arguments

variable (type : Recognizer)

/-- Passes the bound of a wildcard, if there is one. -/
def bound : Recognizer
  | .keyword .extends :: ks | .keyword .super :: ks => type ks
  | ks => some ks

/-- Passes a wildcard or a type behind its annotations. -/
def argument : Recognizer
  | .question :: ks => bound type ks
  | ks => type ks

/-- Passes a closing angle. -/
def closingAngle : Recognizer
  | .greater :: ks => some ks
  | _ => none

/-- Passes an argument with the comma or the angle behind it. -/
def argumentStep (ks : List TokenKind) : Step (List TokenKind) (Option (List TokenKind)) :=
  match (annotations ks).bind (argument type) with
  | some (.comma :: rest) => .again rest
  | some rest => .done (closingAngle rest)
  | none => .done none

/-- Behind an argument and a comma the next argument comes. -/
theorem argumentStep_eq_again {ks rest : List TokenKind}
    (h : (annotations ks).bind (argument type) = some (.comma :: rest)) :
    argumentStep type ks = .again rest := by
  rw [argumentStep, h]

/-- Behind an argument without a comma the closing angle is due. -/
theorem argumentStep_eq_done {ks rest : List TokenKind}
    (h : (annotations ks).bind (argument type) = some rest) (hcomma : ∀ ls, rest ≠ .comma :: ls) :
    argumentStep type ks = .done (closingAngle rest) := by
  rw [argumentStep, h]
  split
  · rename_i heq
    exact absurd (Option.some.inj heq) (hcomma _)
  · rename_i heq
    rw [Option.some.inj heq]
  · rename_i heq
    cases heq

/-- Passes the arguments of a type behind the `<`. -/
def arguments : Recognizer
  | .greater :: ks => some ks
  | ks => repeated (argumentStep type) ks

/-- Where a closing angle is passed, one comes next. -/
theorem eq_of_closingAngle {ks rest : List TokenKind} (h : closingAngle ks = some rest) :
    ks = .greater :: rest := by
  unfold closingAngle at h
  split at h
  · rw [Option.some.inj h]
  · cases h

/-- Where no closing angle comes at once, arguments are passed one after the other. -/
theorem arguments_of_closingAngle {ks : List TokenKind} (h : closingAngle ks = none) :
    arguments type ks = repeated (argumentStep type) ks := by
  unfold arguments
  split
  · cases h
  · rfl

/-- Passes the arguments of a type, if there are any. -/
def optionalArguments : Recognizer
  | .less :: ks => arguments type ks
  | ks => some ks

/-- Passes a name of a class type with its arguments. -/
def segment : Recognizer
  | .identifier :: ks => optionalArguments type ks
  | _ => none

/-- No segment starts with anything but a name. -/
theorem segment_eq_none {ks : List TokenKind} (h : ∀ rest, ks ≠ .identifier :: rest) :
    segment type ks = none := by
  unfold segment
  split
  · exact absurd rfl (h _)
  · rfl

/-- Whether a dot comes next that goes on with a class type. -/
def atSegment : List TokenKind → Bool
  | .dot :: .identifier :: _ | .dot :: .at :: _ => true
  | _ => false

/-- Where a class type goes on, a dot comes next. -/
theorem exists_eq_dot {ks : List TokenKind} (h : atSegment ks = true) : ∃ ls, ks = .dot :: ls := by
  unfold atSegment at h
  split at h
  · exact ⟨_, rfl⟩
  · exact ⟨_, rfl⟩
  · cases h

/-- Passes a dot and another name of a class type, if they come next. -/
def segmentStep (ks : List TokenKind) : Step (List TokenKind) (Option (List TokenKind)) :=
  if atSegment ks then
    match (annotations ks.tail).bind (segment type) with
    | some rest => .again rest
    | none => .done none
  else .done (some ks)

/-- Passes a class type. -/
def classType (ks : List TokenKind) : Option (List TokenKind) :=
  (segment type ks).bind (repeated (segmentStep type))

/-- Passes a type without annotations before it and dimensions behind it. -/
def element : Recognizer
  | .keyword keyword :: ks => if keyword.isPrimitiveType then some ks else none
  | .identifier :: ks => classType type (.identifier :: ks)
  | _ => none

end Arguments

/-- A name before neither a dot nor a `<` is a class type of its own. -/
theorem classType_of_name (type : Recognizer) {ks : List TokenKind}
    (hdot : ∀ ls, ks ≠ .dot :: ls) (hless : ∀ ls, ks ≠ .less :: ls) :
    classType type (.identifier :: ks) = some ks := by
  have hsegment : segment type (.identifier :: ks) = some ks := by
    rw [segment, optionalArguments]
    exact hless
  have hdone : segmentStep type ks = .done (some ks) := by
    rw [segmentStep, if_neg]
    intro hat
    obtain ⟨ls, rfl⟩ := exists_eq_dot hat
    exact hdot ls rfl
  rw [classType, hsegment, Option.bind_some, repeated_of_done hdone]

/-- What is no primitive type can only be a class type. -/
theorem element_eq_classType (type : Recognizer) {ks : List TokenKind}
    (h : ∀ keyword rest, ks = .keyword keyword :: rest → keyword.isPrimitiveType = false) :
    element type ks = classType type ks := by
  unfold element
  split
  · rw [if_neg (by simp [h _ _ rfl])]
    rfl
  · rfl
  · rename_i hkeyword hidentifier
    rw [classType, segment_eq_none type fun rest hks => hidentifier rest hks]
    rfl

/-- Passes a type whose arguments are nested at most so deep. -/
def typeWithin : Nat → Recognizer
  | 0, _ => none
  | n + 1, ks => ((annotations ks).bind (element (typeWithin n))).map dimensions

/-- Passes a type. There are not more levels of arguments than tokens. -/
def type (ks : List TokenKind) : Option (List TokenKind) := typeWithin (ks.length + 1) ks

/-! ### Progress -/

/-- What is left is not longer than before. -/
def Shrinks (r : Recognizer) : Prop := ∀ {ks rest}, r ks = some rest → rest.length ≤ ks.length

/-- Dots with names leave no more than there was. -/
theorem length_dotted_le (ks : List TokenKind) : (dotted ks).length ≤ ks.length := by
  fun_induction dotted ks with
  | case1 ks ih => exact Nat.le_trans ih (Nat.le_add_right _ 2)
  | case2 ks _ => exact Nat.le_refl _

/-- Dimensions leave no more than there was. -/
theorem length_dimensions_le (ks : List TokenKind) : (dimensions ks).length ≤ ks.length := by
  fun_induction dimensions ks with
  | case1 ks ih => exact Nat.le_trans ih (Nat.le_add_right _ 2)
  | case2 ks _ => exact Nat.le_refl _

/-- A name leaves no more than there was. -/
theorem shrinks_name : Shrinks name := by
  intro ks rest h
  unfold name at h
  split at h
  · cases h
    exact Nat.le_trans (length_dotted_le _) (Nat.le_succ _)
  · cases h

/-- A group leaves no more than there was. -/
theorem shrinks_group (depth : Nat) : Shrinks (group depth) := by
  intro ks rest h
  induction ks generalizing depth with
  | nil => cases h
  | cons k ks ih =>
    rw [group] at h
    split at h
    · exact Nat.le_trans (ih _ h) (Nat.le_succ _)
    · cases h
      exact Nat.le_succ _

/-- Where an annotation comes next, its `@` does. -/
theorem exists_eq_at {ks : List TokenKind} (h : atAnnotation ks = true) : ∃ ls, ks = .at :: ls := by
  unfold atAnnotation at h
  split at h
  · cases h
  · exact ⟨_, rfl⟩
  · cases h

/-- An annotation leaves no more than there was. -/
theorem shrinks_annotationUse : Shrinks annotationUse := by
  intro ks rest h
  obtain ⟨behind, hname, hgroup⟩ := Option.bind_eq_some_iff.mp h
  refine Nat.le_trans ?_ (shrinks_name hname)
  unfold optionalGroup at hgroup
  split at hgroup
  · exact shrinks_group 0 hgroup
  · cases hgroup
    exact Nat.le_refl _

/-- A round over annotations passes an `@`. -/
theorem shortens_annotationStep : Shortens annotationStep := by
  intro ks rest h
  unfold annotationStep at h
  split at h
  · rename_i hat
    split at h
    · rename_i hrest
      cases h
      obtain ⟨ks, rfl⟩ := exists_eq_at hat
      exact Nat.lt_succ_of_le (shrinks_annotationUse hrest)
    · cases h
  · cases h

/-- Annotations leave no more than there was. -/
theorem shrinks_annotations : Shrinks annotations := by
  intro ks rest h
  refine repeated_induction (P := fun ks rest => rest.length ≤ ks.length)
    shortens_annotationStep h ?_ ?_
  · intro ks next rest hstep hle
    exact Nat.le_trans hle (Nat.le_of_lt (shortens_annotationStep ks next hstep))
  · intro ks rest hstep
    unfold annotationStep at hstep
    split at hstep
    · split at hstep <;> cases hstep
    · cases hstep
      exact Nat.le_refl _

section Progress

variable {type : Recognizer} (htype : Shrinks type)

include htype

/-- An argument leaves no more than there was. -/
theorem shrinks_argument : Shrinks (argument type) := by
  intro ks rest h
  unfold argument at h
  split at h
  · unfold bound at h
    split at h
    · exact Nat.le_trans (htype h) (Nat.le_add_right _ 2)
    · exact Nat.le_trans (htype h) (Nat.le_add_right _ 2)
    · cases h
      exact Nat.le_succ _
  · exact htype h

/-- A round over arguments passes a comma. -/
theorem shortens_argumentStep : Shortens (argumentStep type) := by
  intro ks rest h
  unfold argumentStep at h
  split at h
  · rename_i hrest
    cases h
    obtain ⟨behind, hannotations, hargument⟩ := Option.bind_eq_some_iff.mp hrest
    exact Nat.lt_of_lt_of_le (shrinks_argument htype hargument) (shrinks_annotations hannotations)
  · cases h
  · cases h

/-- Arguments leave no more than there was. -/
theorem shrinks_arguments : Shrinks (arguments type) := by
  intro ks rest h
  unfold arguments at h
  split at h
  · cases h
    exact Nat.le_succ _
  refine repeated_induction (P := fun ks rest => rest.length ≤ ks.length)
    (shortens_argumentStep htype) h ?_ ?_
  · intro ks next rest hstep hle
    exact Nat.le_trans hle (Nat.le_of_lt (shortens_argumentStep htype ks next hstep))
  · intro ks rest hstep
    unfold argumentStep at hstep
    split at hstep
    · cases hstep
    · rename_i behind _ hbehind
      obtain ⟨between, hannotations, hargument⟩ := Option.bind_eq_some_iff.mp hbehind
      refine Nat.le_trans ?_ (Nat.le_trans (shrinks_argument htype hargument)
        (shrinks_annotations hannotations))
      unfold closingAngle at hstep
      split at hstep
      · cases hstep
        exact Nat.le_succ _
      · cases hstep
    · cases hstep

/-- A segment has a name at least. -/
theorem length_lt_of_segment {ks rest : List TokenKind} (h : segment type ks = some rest) :
    rest.length < ks.length := by
  unfold segment at h
  split at h
  · unfold optionalArguments at h
    split at h
    · have hle := shrinks_arguments htype h
      simp only [List.length_cons]
      omega
    · cases h
      exact Nat.lt_succ_self _
  · cases h

/-- A round over segments passes a dot. -/
theorem shortens_segmentStep : Shortens (segmentStep type) := by
  intro ks rest h
  unfold segmentStep at h
  split at h
  · split at h
    · rename_i hrest
      cases h
      obtain ⟨behind, hannotations, hsegment⟩ := Option.bind_eq_some_iff.mp hrest
      refine Nat.lt_of_lt_of_le (length_lt_of_segment htype hsegment)
        (Nat.le_trans (shrinks_annotations hannotations) ?_)
      simp
    · cases h
  · cases h

/-- A class type leaves no more than there was. -/
theorem shrinks_classType : Shrinks (classType type) := by
  intro ks rest h
  obtain ⟨behind, hsegment, hmore⟩ := Option.bind_eq_some_iff.mp h
  refine Nat.le_trans ?_ (Nat.le_of_lt (length_lt_of_segment htype hsegment))
  refine repeated_induction (P := fun ks rest => rest.length ≤ ks.length)
    (shortens_segmentStep htype) hmore ?_ ?_
  · intro ks next rest hstep hle
    exact Nat.le_trans hle (Nat.le_of_lt (shortens_segmentStep htype ks next hstep))
  · intro ks rest hstep
    unfold segmentStep at hstep
    split at hstep
    · split at hstep <;> cases hstep
    · cases hstep
      exact Nat.le_refl _

/-- A type without dimensions leaves no more than there was. -/
theorem shrinks_element : Shrinks (element type) := by
  intro ks rest h
  unfold element at h
  split at h
  · split at h
    · cases h
      exact Nat.le_succ _
    · cases h
  · exact shrinks_classType htype h
  · cases h

end Progress

/-- A type leaves no more than there was, however deep its arguments may be nested. -/
theorem shrinks_typeWithin (n : Nat) : Shrinks (typeWithin n) := by
  induction n with
  | zero =>
    intro ks rest h
    cases h
  | succ n ih =>
    intro ks rest h
    obtain ⟨behind, helement, rfl⟩ := Option.map_eq_some_iff.mp h
    obtain ⟨between, hannotations, helement⟩ := Option.bind_eq_some_iff.mp helement
    exact Nat.le_trans (length_dimensions_le _) (Nat.le_trans (shrinks_element ih helement)
      (shrinks_annotations hannotations))

/-- A type leaves no more than there was. -/
theorem shrinks_type : Shrinks type := fun h => shrinks_typeWithin _ h

/-! ### Enough levels -/

section Levels

variable {t t' : Recognizer} (ht : Shrinks t) (ht' : Shrinks t') {N : Nat}
  (h : ∀ ks : List TokenKind, ks.length < N → t ks = t' ks) {ks : List TokenKind}

include h in
/-- An argument is as long as the types are that it can be. -/
theorem argument_congr (hks : ks.length < N) : argument t ks = argument t' ks := by
  unfold argument
  split
  · unfold bound
    split
    · exact h _ (by simp at hks; omega)
    · exact h _ (by simp at hks; omega)
    · rfl
  · exact h _ hks

include h in
/-- A round over arguments depends on types in shorter lists only. -/
theorem argumentStep_congr (hks : ks.length < N) : argumentStep t ks = argumentStep t' ks := by
  have hsame : (annotations ks).bind (argument t) = (annotations ks).bind (argument t') := by
    cases hannotations : annotations ks with
    | none => rfl
    | some behind =>
      exact argument_congr h (Nat.lt_of_le_of_lt (shrinks_annotations hannotations) hks)
  unfold argumentStep
  rw [hsame]

/-- Repetitions whose steps are the same on short lists are the same there. -/
theorem repeated_congr {step step' : RecognizerStep} (hstep : Shortens step)
    (hstep' : Shortens step')
    (h : ∀ ks : List TokenKind, ks.length < N → step ks = step' ks) (hks : ks.length < N) :
    repeated step ks = repeated step' ks := by
  induction hn : ks.length using Nat.strongRecOn generalizing ks with
  | ind n ih =>
    rw [repeated_eq hstep, repeated_eq hstep', ← h ks hks]
    cases hnext : step ks with
    | done result => rfl
    | again rest =>
      have hlt := hstep ks rest hnext
      exact ih rest.length (hn ▸ hlt) (Nat.lt_trans hlt hks) rfl

include ht ht' h in
/-- Arguments depend on types in shorter lists only. -/
theorem arguments_congr (hks : ks.length < N) : arguments t ks = arguments t' ks := by
  unfold arguments
  split
  · rfl
  · exact repeated_congr (shortens_argumentStep ht) (shortens_argumentStep ht')
      (fun ks hks => argumentStep_congr h hks) hks

include ht ht' h in
/-- A segment depends on types in shorter lists only. -/
theorem segment_congr (hks : ks.length ≤ N) : segment t ks = segment t' ks := by
  unfold segment
  split
  · unfold optionalArguments
    split
    · exact arguments_congr ht ht' h (by simp at hks; omega)
    · rfl
  · rfl

include ht ht' h in
/-- A round over segments depends on types in shorter lists only. -/
theorem segmentStep_congr (hks : ks.length < N) : segmentStep t ks = segmentStep t' ks := by
  have hsame : (annotations ks.tail).bind (segment t) =
      (annotations ks.tail).bind (segment t') := by
    cases hannotations : annotations ks.tail with
    | none => rfl
    | some behind =>
      have hle := shrinks_annotations hannotations
      exact segment_congr ht ht' h (by simp at hle; omega)
  unfold segmentStep
  rw [hsame]

include ht ht' h in
/-- A type depends on its arguments, and these stand in shorter lists. -/
theorem element_congr (hks : ks.length ≤ N) : element t ks = element t' ks := by
  unfold element
  split
  · rfl
  · unfold classType
    rw [segment_congr ht ht' h hks]
    cases hsegment : segment t' _ with
    | none => rfl
    | some behind =>
      have hlt := length_lt_of_segment ht' hsegment
      exact repeated_congr (shortens_segmentStep ht) (shortens_segmentStep ht')
        (fun ks hks => segmentStep_congr ht ht' h hks) (Nat.lt_of_lt_of_le hlt hks)
  · rfl

end Levels

/-- More levels than there are kinds make no difference. -/
theorem typeWithin_eq_of_lt {m n : Nat} {ks : List TokenKind} (hm : ks.length < m)
    (hn : ks.length < n) : typeWithin m ks = typeWithin n ks := by
  induction m generalizing n ks with
  | zero => exact absurd hm (Nat.not_lt_zero _)
  | succ m ih =>
    obtain ⟨n, rfl⟩ := Nat.exists_eq_succ_of_ne_zero (Nat.ne_zero_of_lt hn)
    rw [typeWithin, typeWithin]
    cases hannotations : annotations ks with
    | none => rfl
    | some behind =>
      have hle := shrinks_annotations hannotations
      have hsame : element (typeWithin m) behind = element (typeWithin n) behind :=
        element_congr (shrinks_typeWithin m) (shrinks_typeWithin n)
          (fun ls hls => ih (by omega) (by omega)) hle
      rw [Option.bind_some, Option.bind_some, hsame]

/-- A type is put together from types again. -/
theorem type_eq (ks : List TokenKind) :
    type ks = ((annotations ks).bind (element type)).map dimensions := by
  rw [type, typeWithin]
  cases hannotations : annotations ks with
  | none => rfl
  | some behind =>
    have hsame : element (typeWithin ks.length) behind = element type behind :=
      element_congr (shrinks_typeWithin _) shrinks_type
        (fun ls hls => typeWithin_eq_of_lt hls (Nat.lt_succ_self _))
        (shrinks_annotations hannotations)
    rw [Option.bind_some, Option.bind_some, hsame]

end Recognizer

end JavaSyntax
