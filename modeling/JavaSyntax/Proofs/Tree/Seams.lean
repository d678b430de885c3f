import JavaSyntax.Proofs.Tree.Reading
import Mathlib.Data.List.Chain

/-!
# Seams

Printing leaves out white space in many places, and the words on both sides of such a seam have
to be read as they stand. Whether they may touch is a matter of their kinds.

A script is sewn if any two words that touch in it may do so. Scripts are sewn together here in
all the ways in which trees are printed. What has to be known of a script for this is which kinds
of words may stand behind it, and, if there is another script before it, what it starts with.
-/

namespace JavaSyntax

open Mark

/-! ### Marks side by side -/

namespace Mark

variable {m next : Mark}

/-- Whether two marks may stand side by side. -/
def touches : Mark → Mark → Bool
  | word kind _, word next _ => kind.mayTouch next
  | _, _ => true

/-- A gap, or a word of certain kinds. -/
def IsOf (p : TokenKind → Bool) : Mark → Prop
  | gap => True
  | word kind _ => p kind = true

instance (p : TokenKind → Bool) : (m : Mark) → Decidable (m.IsOf p)
  | gap => isTrue trivial
  | word kind _ => inferInstanceAs (Decidable (p kind = true))

/-- A mark of certain kinds is one of more kinds. -/
theorem IsOf.mono {p q : TokenKind → Bool} (h : m.IsOf p) (hpq : ∀ k, p k = true → q k = true) :
    m.IsOf q := by
  cases m with
  | gap => trivial
  | word kind => exact hpq kind h

end Mark

/-! ### What may stand behind a script -/

namespace TokenKind

/-- Any kind. -/
def isAny (_ : TokenKind) : Bool := true

/-- No kind. -/
def isNone (_ : TokenKind) : Bool := false

/-- The kinds that stand behind the dot of a selector. -/
def opensMember (kind : TokenKind) : Bool := kind.opensName || kind == .less

/-- The kinds that stand behind type arguments. -/
def followsAngles (kind : TokenKind) : Bool := kind.docks || kind.opensName

/-- The kinds that a type starts with. -/
def opensType (kind : TokenKind) : Bool := kind.opensName || kind == .leftBracket

/-- The kinds that names, types and expressions end with. -/
def isLast (kind : TokenKind) : Bool :=
  kind.isFence || kind.scanned.isEnding && kind != .shiftRight && kind != .unsignedShiftRight

/-- What docks may stand behind type arguments. -/
theorem followsAngles_of_docks {kind : TokenKind} (h : kind.docks = true) :
    kind.followsAngles = true := by
  rw [followsAngles, h, Bool.true_or]

/-- What types start with may stand behind type arguments. -/
theorem followsAngles_of_opensType {kind : TokenKind} (h : kind.opensType = true) :
    kind.followsAngles = true := by
  simp only [opensType, Bool.or_eq_true, beq_iff_eq] at h
  rcases h with h | rfl
  · rw [followsAngles, h, Bool.or_true]
  · rfl

/-- Names are types. -/
theorem opensType_of_opensName {kind : TokenKind} (h : kind.opensName = true) :
    kind.opensType = true := by
  rw [opensType, h, Bool.true_or]

/-- Names may stand behind the dot of a selector. -/
theorem opensMember_of_opensName {kind : TokenKind} (h : kind.opensName = true) :
    kind.opensMember = true := by
  rw [opensMember, h, Bool.true_or]

/-- Names do not go on operators. -/
theorem isCalm_of_opensName {kind : TokenKind} (h : kind.opensName = true) :
    kind.isCalm = true := by
  cases kind <;> first | rfl | cases h

/-- Types do not go on operators. -/
theorem isCalm_of_opensType {kind : TokenKind} (h : kind.opensType = true) :
    kind.isCalm = true := by
  simp only [opensType, Bool.or_eq_true, beq_iff_eq] at h
  rcases h with h | rfl
  · exact isCalm_of_opensName h
  · decide

/-- Every word starts a name. -/
@[simp] theorem opensName_classifyWord (word : String) : (classifyWord word).opensName = true := by
  simp [opensName]

/-- A fence may touch everything behind it. -/
theorem mayTouch_of_isFence {kind next : TokenKind} (h : kind.isFence = true) :
    kind.mayTouch next = true := by
  simp [mayTouch, h]

/-- What names, types and expressions end with may touch what docks. -/
theorem mayTouch_of_docks {kind next : TokenKind} (h : kind.isLast = true)
    (hnext : next.docks = true) : kind.mayTouch next = true := by
  simp only [isLast, Bool.or_eq_true] at h
  rcases h with h | h
  · exact mayTouch_of_isFence h
  · simp [mayTouch, h, hnext]

end TokenKind

namespace Script

variable {p q : TokenKind → Bool} {m next : Mark} {ms ns more : Script} {ss : List Script}
  {kind : TokenKind}

/-- Any two marks that stand side by side in a script may do so. -/
abbrev Sewn (ms : Script) : Prop := ms.IsChain fun m next => m.touches next = true

/-- A script starts with a mark of a certain sort, if it is not empty. -/
def Starts (P : Mark → Prop) (ms : Script) : Prop := ∀ m ∈ ms.head?, P m

/-- A script may have behind it whatever starts with a gap or with a word of certain kinds. -/
def Before (p : TokenKind → Bool) (ms : Script) : Prop :=
  ∀ more : Script, more.Sewn → more.Starts (IsOf p) → (ms ++ more).Sewn

/-- A script that may have something behind it is sewn. -/
theorem Before.sewn (h : Before p ms) : ms.Sewn := by
  simpa using h [] .nil nofun

/-- Fewer kinds may be said to stand behind a script. -/
theorem Before.mono (h : Before q ms) (hpq : ∀ k, p k = true → q k = true) : Before p ms :=
  fun more hmore hstarts => h more hmore fun m hm => (hstarts m hm).mono hpq

/-- Nothing may have anything behind it. -/
theorem before_nil : Before p [] := fun _ h _ => h

/-- What follows a script is the next script, or what follows that if it is empty. -/
theorem Before.append (h : Before q ms)
    (hnext : ∀ more : Script, more.Starts (IsOf p) → (ns ++ more).Starts (IsOf q))
    (hns : Before p ns) : Before p (ms ++ ns) := by
  intro more hmore hstarts
  rw [List.append_assoc]
  exact h _ (hns more hmore hstarts) (hnext more hstarts)

/-- Anything may follow a script that ends with a fence. -/
theorem Before.append_any (h : Before TokenKind.isAny ms) (hns : Before p ns) :
    Before p (ms ++ ns) :=
  h.append (fun _ _ m _ => by cases m <;> trivial) hns

/-- A script may have another one behind it that starts suitably, and then what that one may
have. -/
theorem Before.append_cons (h : Before q ms) (hm : m.IsOf q) (hns : Before p (m :: ns)) :
    Before p (ms ++ m :: ns) :=
  h.append (fun _ _ next hnext => by cases hnext; exact hm) hns

/-- A script of several marks is one whose first two may touch and whose rest may stand where it
does. -/
theorem before_cons_cons : Before p (m :: next :: ms) ↔
    m.touches next = true ∧ Before p (next :: ms) := by
  constructor
  · intro h
    refine ⟨(List.isChain_cons_cons.mp h.sewn).1, fun more hmore hstarts => ?_⟩
    exact (List.isChain_cons_cons.mp (h more hmore hstarts)).2
  · rintro ⟨htouches, h⟩ more hmore hstarts
    exact List.isChain_cons_cons.mpr ⟨htouches, h more hmore hstarts⟩

/-- A single mark may have behind it what it may touch. -/
theorem before_singleton (h : ∀ next : Mark, next.IsOf p → m.touches next = true) :
    Before p [m] :=
  fun _ hmore hstarts =>
    List.isChain_cons.mpr ⟨fun next hnext => h next (hstarts next hnext), hmore⟩

/-- A gap may have anything behind it. -/
theorem before_gap : Before p [gap] := before_singleton fun _ _ => rfl

/-- A word may have behind it what its kind may touch. -/
theorem before_word {text : String} (h : ∀ k, p k = true → kind.mayTouch k = true) :
    Before p [.word kind text] := by
  refine before_singleton fun next hnext => ?_
  cases next with
  | gap => rfl
  | word k => exact h k hnext

/-- A fence may have anything behind it. -/
theorem before_fence (h : kind.isFence = true) : Before p [.sign kind] :=
  before_word fun _ _ => TokenKind.mayTouch_of_isFence h

/-- A sign that ends something may have behind it what docks. -/
theorem before_last (h : kind.isLast = true) : Before TokenKind.docks [.sign kind] :=
  before_word fun _ => TokenKind.mayTouch_of_docks h

/-- Any word may stand before a gap. -/
theorem before_isNone (m : Mark) : Before TokenKind.isNone [m] := by
  refine before_singleton fun next hnext => ?_
  cases next with
  | gap => cases m <;> rfl
  | word => cases hnext

/-- A keyword may have behind it what docks. -/
theorem before_keyword (word : Keyword) : Before TokenKind.docks [.keyword word] :=
  before_last rfl

/-- A name may have behind it what docks. -/
theorem before_name (text : String) : Before TokenKind.docks [.name text] := by
  refine before_word fun k hk => TokenKind.mayTouch_of_docks ?_ hk
  rcases classifyWord_cases text with hword | ⟨keyword, hword⟩
  · simp only [List.mem_cons, List.not_mem_nil, or_false] at hword
    rcases hword with hword | hword | hword | hword <;> rw [hword] <;> rfl
  · rw [hword]
    rfl

/-- A literal may have behind it what docks. -/
theorem before_literal (l : LiteralText) : Before TokenKind.docks [.literal l] := by
  obtain ⟨kind, value, text⟩ := l
  cases kind with
  | boolean => exact before_name text
  | _ => exact before_word fun _ => TokenKind.mayTouch_of_docks rfl

/-- A dot may have behind it what selectors go on with. -/
theorem before_dot : Before TokenKind.opensMember [.sign .dot] :=
  before_word fun k hk => by
    simp only [TokenKind.opensMember, Bool.or_eq_true, beq_iff_eq] at hk
    rcases hk with hk | rfl
    · simp [TokenKind.mayTouch, TokenKind.precedesNames, hk]
    · rfl

/-! #### Scripts in a row -/

/-- An empty script starts with anything. -/
theorem starts_nil {P : Mark → Prop} : Starts P [] := nofun

/-- A script starts with its first mark. -/
theorem starts_cons {P : Mark → Prop} : Starts P (m :: ms) ↔ P m := by simp [Starts]

/-- Less may be said about how a script starts. -/
theorem Starts.mono {P Q : Mark → Prop} (h : Starts P ms) (hPQ : ∀ m, P m → Q m) : Starts Q ms :=
  fun m hm => hPQ m (h m hm)

/-- A script with more behind it starts as it did, unless it is empty. -/
theorem Starts.append {P : Mark → Prop} (h : Starts P ms) (hmore : ms ≠ [] ∨ Starts P more) :
    Starts P (ms ++ more) := by
  cases ms with
  | nil => exact hmore.resolve_left (absurd rfl)
  | cons => exact starts_cons.mpr (starts_cons.mp h)

/-- What the first script that is not empty starts with. A condition is left if all of them
are empty. -/
def Leads (P : Mark → Prop) (last : Prop) : List Script → Prop
  | [] => last
  | s :: ss => Starts P s ∧ (s ≠ [] ∨ Leads P last ss)

/-- Scripts in a row start as the first one that is not empty. -/
theorem Leads.starts {P : Mark → Prop} {last : Prop} (h : Leads P last ss)
    (hmore : last → Starts P more) : Starts P (all ss ++ more) := by
  induction ss with
  | nil => exact hmore h
  | cons s ss ih =>
    obtain ⟨hs, hss⟩ := h
    rw [all, List.flatten_cons, List.append_assoc]
    exact hs.append (hss.imp_right ih)

/-- Scripts in a row are not empty if one of them is not. -/
theorem all_ne_nil (h : ∃ s ∈ ss, s ≠ []) : all ss ≠ [] := by
  obtain ⟨s, hs, hne⟩ := h
  exact fun hnil => hne (List.flatten_eq_nil_iff.mp hnil s hs)

/-- Scripts in a row start suitably if the first one that is not empty does. -/
theorem starts_all {P : Mark → Prop} (h : Leads P True ss) : Starts P (all ss) := by
  have hstarts : Starts P (all ss ++ []) := h.starts fun _ => starts_nil
  rwa [List.append_nil] at hstarts

/-- Each script ends with a fence, or what follows it is known well enough. -/
def Seamed : List Script → Prop
  | [] => True
  | s :: ss => Seamed ss ∧ (Before TokenKind.isAny s ∨
      Before TokenKind.docks s ∧ Leads (IsOf TokenKind.docks) True ss ∨
      Before TokenKind.followsAngles s ∧ Leads (IsOf TokenKind.followsAngles) True ss ∨
      Before TokenKind.opensMember s ∧ Leads (IsOf TokenKind.opensMember) False ss ∨
      Before TokenKind.isNone s ∧ Leads (IsOf TokenKind.isNone) False ss)

/-- Scripts in a row may have behind them what docks, if each fits the next one. -/
theorem Seamed.before (h : Seamed ss) : Before TokenKind.docks (all ss) := by
  induction ss with
  | nil => exact before_nil
  | cons s ss ih =>
    obtain ⟨hss, hs⟩ := h
    rw [all, List.flatten_cons]
    rcases hs with hs | ⟨hs, hnext⟩ | ⟨hs, hnext⟩ | ⟨hs, hnext⟩ | ⟨hs, hnext⟩
    · exact hs.append_any (ih hss)
    · exact hs.append (fun more hmore => hnext.starts fun _ => hmore) (ih hss)
    · refine hs.append (fun more hmore => hnext.starts fun _ => hmore.mono fun m hm => ?_) (ih hss)
      exact hm.mono fun _ => TokenKind.followsAngles_of_docks
    · exact hs.append (fun more hmore => hnext.starts False.elim) (ih hss)
    · exact hs.append (fun more hmore => hnext.starts False.elim) (ih hss)

/-! #### Lists -/

/-- A comma and a gap may have anything behind them. -/
theorem before_comma : Before TokenKind.isAny [.sign .comma, gap] :=
  before_cons_cons.mpr ⟨rfl, before_gap⟩

/-- Scripts in a row start suitably if all of them do. -/
theorem starts_flatten {P : Mark → Prop} (h : ss.Forall (Starts P)) : Starts P (all ss) := by
  induction ss with
  | nil => exact starts_nil
  | cons s ss ih =>
    obtain ⟨hs, hss⟩ := (List.forall_cons ..).mp h
    exact hs.append (.inr (ih hss))

/-- What stands in a row may touch what comes before it in this row. -/
theorem before_flatten (h : ss.Forall (Before p)) (hstarts : ss.Forall (Starts (IsOf p))) :
    Before p (all ss) := by
  induction ss with
  | nil => exact before_nil
  | cons s ss ih =>
    obtain ⟨hs, hss⟩ := (List.forall_cons ..).mp h
    obtain ⟨-, hmore⟩ := (List.forall_cons ..).mp hstarts
    exact hs.append (fun more hnext => (starts_flatten hmore).append (.inr hnext)) (ih hss hmore)

/-- Scripts with a separator between them start suitably if they do. -/
theorem starts_join {P : Mark → Prop} {separator : Script}
    (h : ss.Forall fun s => Starts P s ∧ (s ≠ [] ∨ Starts P separator)) :
    Starts P (join separator ss) := by
  fun_induction join separator ss with
  | case1 => exact starts_nil
  | case2 s => exact h.1
  | case3 s ss _ ih =>
    obtain ⟨⟨hs, hnext⟩, hss⟩ := (List.forall_cons ..).mp h
    exact hs.append (hnext.imp_right fun hseparator => hseparator.append (.inr (ih hss)))

/-- Scripts may have behind them what each of them may have, if the separator is among that. -/
theorem before_join {separator : Script} (hseparator : Before TokenKind.isAny separator)
    (hne : separator ≠ []) (hstarts : Starts (IsOf p) separator) (h : ss.Forall (Before p)) :
    Before p (join separator ss) := by
  fun_induction join separator ss with
  | case1 => exact before_nil
  | case2 s => exact h
  | case3 s ss _ ih =>
    obtain ⟨hs, hss⟩ := (List.forall_cons ..).mp h
    refine hs.append (fun more _ => ?_) (hseparator.append_any (ih hss))
    rw [List.append_assoc]
    exact hstarts.append (.inl hne)

/-- Scripts with commas between them may have behind them what docks. -/
theorem before_commas (h : ss.Forall (Before TokenKind.docks)) :
    Before TokenKind.docks (join [.sign .comma, gap] ss) :=
  before_join before_comma (List.cons_ne_nil _ _) (starts_cons.mpr rfl) h

/-- Scripts with a separator between them start as the first one, or with what follows it if that
is empty. -/
theorem Starts.join_append {P : Mark → Prop} {separator s : Script} (h : Starts P s)
    (hnext : s ≠ [] ∨ (∀ rest, Starts P (separator ++ rest)) ∧ Starts P more) :
    Starts P (join separator (s :: ss) ++ more) := by
  cases ss with
  | nil => exact h.append (hnext.imp_right And.right)
  | cons =>
    rw [join, List.append_assoc, List.append_assoc]
    · exact h.append (hnext.imp_right fun hseparator => hseparator.1 _)
    · exact List.cons_ne_nil _ _

/-- Behind a dot are names. -/
theorem before_join_dot (h : ss.Forall (Before TokenKind.docks))
    (hstarts : ss.Forall fun s => s ≠ [] ∧ Starts (IsOf TokenKind.opensName) s) :
    Before TokenKind.docks (join [.sign .dot] ss) := by
  fun_induction join [.sign .dot] ss with
  | case1 => exact before_nil
  | case2 s => exact h
  | case3 s ss hne ih =>
    obtain ⟨hs, hss⟩ := (List.forall_cons ..).mp h
    obtain ⟨-, hmore⟩ := (List.forall_cons ..).mp hstarts
    refine hs.append_cons rfl (before_dot.append (fun more _ => ?_) (ih hss hmore))
    cases ss with
    | nil => exact absurd rfl hne
    | cons s' ss =>
      obtain ⟨⟨hs', hname⟩, -⟩ := (List.forall_cons ..).mp hmore
      have hmember : Starts (IsOf TokenKind.opensMember) s' :=
        hname.mono fun m hm => hm.mono fun _ => TokenKind.opensMember_of_opensName
      exact hmember.join_append (.inl hs')

/-- A list in brackets may have behind it what its closing bracket may have. -/
theorem before_list {opening separator closing : Script} (hopening : Before TokenKind.isAny opening)
    (hseparator : Before TokenKind.isAny separator) (hne : separator ≠ [])
    (hstarts : Starts (IsOf TokenKind.docks) separator) (hclosing : Before TokenKind.docks closing)
    (hend : Starts (IsOf TokenKind.docks) closing) (h : ss.Forall (Before TokenKind.docks)) :
    Before TokenKind.docks (list opening separator closing ss) := by
  unfold list
  split
  · exact before_nil
  · have hjoin := before_join hseparator hne hstarts h
    exact Seamed.before ⟨⟨⟨trivial, .inr (.inl ⟨hclosing, trivial⟩)⟩,
      .inr (.inl ⟨hjoin, hend, .inr trivial⟩)⟩, .inl hopening⟩

/-- A list in brackets starts with the opening one. -/
theorem starts_list {P : Mark → Prop} {opening separator closing : Script}
    (h : Starts P opening) (hne : opening ≠ []) : Starts P (list opening separator closing ss) := by
  unfold list
  split
  · exact starts_nil
  · exact starts_all ⟨h, .inl hne⟩

/-- Whatever type arguments start with may touch the angle before them, and so may the end of
their list. -/
theorem before_angles (h : ss.Forall (Before TokenKind.docks))
    (hstarts : ss.Forall (Starts (IsOf TokenKind.opensType))) :
    Before TokenKind.followsAngles (angles ss) := by
  unfold angles list
  split
  · exact before_nil
  have hclosing : Before TokenKind.followsAngles [.sign .greater] := by
    refine before_word fun k hk => ?_
    simp only [TokenKind.followsAngles, Bool.or_eq_true] at hk
    rcases hk with hk | hk
    · exact TokenKind.mayTouch_of_docks rfl hk
    · simp [TokenKind.mayTouch, TokenKind.precedesNames, hk]
  have hopening : Before (fun k => k.opensType || k == .comma || k == .greater) [.sign .less] := by
    refine before_word fun k hk => ?_
    simp only [TokenKind.opensType, Bool.or_eq_true, beq_iff_eq] at hk
    rcases hk with ((hk | rfl) | rfl) | rfl
    · simp [TokenKind.mayTouch, TokenKind.precedesNames, hk]
    all_goals rfl
  simp only [all, List.flatten_cons, List.flatten_nil, List.append_nil]
  refine hopening.append (fun more _ => ?_) ((before_commas h).append_cons rfl hclosing)
  rw [List.append_assoc]
  -- the first argument may be empty as far as this is concerned
  cases ss with
  | nil => exact starts_cons.mpr rfl
  | cons s ss =>
    obtain ⟨hs, -⟩ := (List.forall_cons ..).mp hstarts
    have hs' : Starts (IsOf fun k => k.opensType || k == .comma || k == .greater) s := by
      refine hs.mono fun m hm => hm.mono fun k hk => ?_
      simp [hk]
    exact hs'.join_append (.inr ⟨fun rest => starts_cons.mpr rfl, starts_cons.mpr rfl⟩)

/-- Type arguments start with an opening angle. -/
theorem starts_angles {P : Mark → Prop} (h : P (.sign .less)) : Starts P (angles ss) :=
  starts_list (starts_cons.mpr h) (List.cons_ne_nil _ _)

/-- A list in parentheses may have anything behind it. -/
theorem before_parens (h : ss.Forall (Before TokenKind.docks)) :
    Before TokenKind.isAny (parens ss) := by
  have hopening : Before TokenKind.isAny [.sign .leftParen] := before_fence rfl
  have hclosing : Before TokenKind.isAny [.sign .rightParen] := before_fence rfl
  simp only [parens, all, List.flatten_cons, List.flatten_nil, List.append_nil]
  exact hopening.append_any ((before_commas h).append_cons rfl hclosing)

/-- A list in parentheses starts with the opening one. -/
theorem starts_parens {P : Mark → Prop} (h : P (.sign .leftParen)) : Starts P (parens ss) :=
  starts_cons.mpr h

/-- A list in parentheses is never empty. -/
theorem parens_ne_nil : parens ss ≠ [] := List.cons_ne_nil _ _

/-- Each script with a gap behind it. -/
theorem before_lines (h : ss.Forall (Before p)) : Before TokenKind.isAny (prefixes ss) := by
  induction ss with
  | nil => exact before_nil
  | cons s ss ih =>
    obtain ⟨hs, hss⟩ := (List.forall_cons ..).mp h
    have hfirst : Before TokenKind.isAny (s ++ [gap]) := hs.append_cons trivial before_gap
    simpa [prefixes, all] using hfirst.append_any (ih hss)

/-- Annotations and modifiers, each with a gap behind it, may have anything behind them. -/
theorem before_prefixes (h : ss.Forall (Before TokenKind.docks)) :
    Before TokenKind.isAny (prefixes ss) := before_lines h

/-- Annotations and modifiers start as each of them does. -/
theorem starts_prefixes (h : ss.Forall (Starts (IsOf p))) : Starts (IsOf p) (prefixes ss) := by
  cases ss with
  | nil => exact starts_nil
  | cons s ss =>
    obtain ⟨hs, -⟩ := (List.forall_cons ..).mp h
    have hgap : Starts (IsOf p) (s ++ gap :: prefixes ss) :=
      hs.append (.inr (starts_cons.mpr trivial))
    rwa [prefixes, List.flatMap_cons, all, List.flatten_cons, List.flatten_cons, List.flatten_nil,
      List.append_nil, List.append_assoc, List.singleton_append]

/-- Scripts with a gap before each may have behind them what each of them may have. -/
theorem before_leading (h : ss.Forall (Before p)) :
    Before p (ss.flatMap fun s => all [[gap], s]) := by
  induction ss with
  | nil => exact before_nil
  | cons s ss ih =>
    obtain ⟨hs, hss⟩ := (List.forall_cons ..).mp h
    have hfirst : Before p ([gap] ++ (s ++ [])) := by
      simpa using before_gap.append_any hs
    refine hfirst.append (fun more hmore => ?_) (ih hss)
    cases ss with
    | nil => exact hmore
    | cons => exact starts_cons.mpr trivial

/-- Scripts with a gap before each start with a gap. -/
theorem starts_leading {P : Mark → Prop} (h : P gap) :
    Starts P (ss.flatMap fun s => all [[gap], s]) := by
  cases ss with
  | nil => exact starts_nil
  | cons => exact starts_cons.mpr h

/-- Lines in braces may have anything behind them. -/
theorem before_braced (h : ss.Forall (Before p)) : Before TokenKind.isAny (bracedLines ss) := by
  have hclosing : Before TokenKind.isAny [.sign .rightBrace] := before_fence rfl
  have hopening : Before TokenKind.isAny [.sign .leftBrace, gap] :=
    before_cons_cons.mpr ⟨rfl, before_gap⟩
  unfold bracedLines
  split
  · exact before_cons_cons.mpr ⟨rfl, hclosing⟩
  · have hlines := (before_lines h).append_any hclosing
    simpa [all, prefixes] using hopening.append_any hlines

/-- Lines in braces that dock may have anything behind them. -/
theorem before_bracedLines (h : ss.Forall (Before TokenKind.docks)) :
    Before TokenKind.isAny (bracedLines ss) := before_braced h

/-- Lines in braces start with the opening one. -/
theorem starts_bracedLines {P : Mark → Prop} (h : P (.sign .leftBrace)) :
    Starts P (bracedLines ss) := by
  unfold bracedLines
  split <;> exact starts_cons.mpr h

/-! #### Parts that may be missing -/

/-- A part that may be missing may have behind it what it may have if it is there. -/
theorem before_optional {α : Type} {k : α → Script} {o : Option α}
    (h : ∀ a ∈ o, Before p (k a)) : Before p (optional k o) := by
  cases o with
  | none => exact before_nil
  | some a => exact h a rfl

/-- A part that may be missing starts as it does if it is there. -/
theorem starts_optional {α : Type} {P : Mark → Prop} {k : α → Script} {o : Option α}
    (h : ∀ a ∈ o, Starts P (k a)) : Starts P (optional k o) := by
  cases o with
  | none => exact starts_nil
  | some a => exact h a rfl

/-- What holds of a list of one item or none holds of the item, if it is there. -/
theorem forall_of_toList {α : Type} {P : α → Prop} {o : Option α} (h : o.toList.Forall P) :
    ∀ a ∈ o, P a :=
  fun a ha => List.forall_iff_forall_mem.mp h a (Option.mem_toList.mpr ha)

/-- Something that may be missing, with what stands before it. -/
theorem before_optionalLast {front : Script} {o : Option Script}
    (hfront : Before TokenKind.isAny front) (h : o.toList.Forall (Before p)) :
    Before p (optional (fun s => all [front, s]) o) := by
  refine before_optional fun s hs => ?_
  simpa [all] using hfront.append_any (forall_of_toList h s hs)

/-- A name that may be missing, with something before it, may have behind it what docks. -/
theorem before_optionalName {front : Script} {o : Option String}
    (hfront : Before TokenKind.isAny front) :
    Before TokenKind.docks (optional (fun n => all [front, [.name n]]) o) := by
  refine before_optional fun n _ => ?_
  simpa [all] using hfront.append_any (before_name n)

/-- A script that may be missing may have behind it what it may have if it is there. -/
theorem before_optionalId {o : Option Script} (h : o.toList.Forall (Before p)) :
    Before p (optional id o) := before_optional (forall_of_toList h)

/-- A body that may be missing may have anything behind it. -/
theorem before_optionalBody {o : Option (List Script)}
    (h : o.toList.Forall (List.Forall (Before TokenKind.docks))) :
    Before TokenKind.isAny (optional (fun ss => all [[gap], bracedLines ss]) o) := by
  refine before_optional fun ss hss => ?_
  simpa [all] using before_gap.append_any (before_bracedLines (forall_of_toList h ss hss))

/-- Arguments that may be missing may have anything behind them. -/
theorem before_optionalParens {o : Option (List Script)}
    (h : o.toList.Forall (List.Forall (Before TokenKind.docks))) :
    Before TokenKind.isAny (optional parens o) :=
  before_optional fun ss hss => before_parens (forall_of_toList h ss hss)

/-- Type arguments that may be missing or left out may have behind them what docks. -/
theorem before_optionalArguments {o : Option (List Script)}
    (h : o.toList.Forall (List.Forall (Before TokenKind.docks)))
    (hstarts : o.toList.Forall (List.Forall (Starts (IsOf TokenKind.opensType)))) :
    Before TokenKind.docks
      (optional (fun ss => if ss.isEmpty then [.sign .less, .sign .greater] else angles ss) o) := by
  refine before_optional fun ss hss => ?_
  split
  · exact before_cons_cons.mpr ⟨rfl, before_last rfl⟩
  · have hangles := before_angles (forall_of_toList h ss hss) (forall_of_toList hstarts ss hss)
    exact hangles.mono fun _ => TokenKind.followsAngles_of_docks

/-- Type arguments that may be missing or left out start with an opening angle. -/
theorem starts_optionalArguments {P : Mark → Prop} {o : Option (List Script)}
    (h : P (.sign .less)) : Starts P
      (optional (fun ss => if ss.isEmpty then [.sign .less, .sign .greater] else angles ss) o) := by
  refine starts_optional fun ss _ => ?_
  split
  · exact starts_cons.mpr h
  · exact starts_angles h

/-- A part that may be missing starts with what stands before it. -/
theorem starts_optionalLast {P : Mark → Prop} {front : Script} {o : Option Script}
    (h : Starts P front) (hne : front ≠ []) :
    Starts P (optional (fun s => all [front, s]) o) :=
  starts_optional fun _ _ => starts_all ⟨h, .inl hne⟩

/-- A name that may be missing starts with what stands before it. -/
theorem starts_optionalName {P : Mark → Prop} {front : Script} {o : Option String}
    (h : Starts P front) (hne : front ≠ []) :
    Starts P (optional (fun n => all [front, [.name n]]) o) :=
  starts_optional fun _ _ => starts_all ⟨h, .inl hne⟩

/-- A body that may be missing has a gap before it. -/
theorem starts_optionalBody {P : Mark → Prop} {o : Option (List Script)} (h : P gap) :
    Starts P (optional (fun ss => all [[gap], bracedLines ss]) o) :=
  starts_optional fun _ _ => starts_cons.mpr h

/-- Arguments that may be missing start with the opening parenthesis. -/
theorem starts_optionalParens {P : Mark → Prop} {o : Option (List Script)}
    (h : P (.sign .leftParen)) : Starts P (optional parens o) :=
  starts_optional fun _ _ => starts_cons.mpr h

/-- A script that depends on a condition may have behind it what it may have. -/
theorem before_onlyIf {condition : Bool} (h : Before p ms) : Before p (onlyIf condition ms) := by
  cases condition with
  | false => exact before_nil
  | true => exact h

/-- A script that depends on a condition starts as it does. -/
theorem starts_onlyIf {P : Mark → Prop} {condition : Bool} (h : Starts P ms) :
    Starts P (onlyIf condition ms) := by
  cases condition with
  | false => exact starts_nil
  | true => exact h

/-- A script that is repeated may have anything behind it, if each round may. -/
theorem before_times {n : Nat} (h : Before TokenKind.isAny ms) :
    Before TokenKind.isAny (times n ms) := by
  induction n with
  | zero => exact before_nil
  | succ n ih =>
    rw [times, List.replicate_succ, all, List.flatten_cons]
    exact h.append_any ih

/-- A script that is repeated starts as it does. -/
theorem starts_times {P : Mark → Prop} {n : Nat} (h : Starts P ms) : Starts P (times n ms) := by
  induction n with
  | zero => exact starts_nil
  | succ n ih =>
    rw [times, List.replicate_succ, all, List.flatten_cons]
    exact h.append (.inr ih)

/-! #### Names -/

/-- Names with a separator between them may have behind them what docks. -/
theorem before_names {separator : Script} (hseparator : Before TokenKind.isAny separator)
    (hne : separator ≠ []) (hstarts : Starts (IsOf TokenKind.docks) separator) (ns : List String) :
    Before TokenKind.docks (names separator ns) := by
  refine before_join hseparator hne hstarts (List.forall_iff_forall_mem.mpr fun s hs => ?_)
  obtain ⟨n, -, rfl⟩ := List.mem_map.mp hs
  exact before_name n

/-- Names with dots between them may have behind them what docks. -/
theorem before_dots (ns : List String) : Before TokenKind.docks (dots ns) := by
  refine before_join_dot (List.forall_iff_forall_mem.mpr fun s hs => ?_)
    (List.forall_iff_forall_mem.mpr fun s hs => ?_) <;>
    obtain ⟨n, -, rfl⟩ := List.mem_map.mp hs
  · exact before_name n
  · exact ⟨List.cons_ne_nil _ _, starts_cons.mpr (TokenKind.opensName_classifyWord n)⟩

/-- A name that is made of names may have behind it what docks. -/
theorem before_path (text : String) : Before TokenKind.docks (path text) := before_dots _

/-- Modifiers, each with a gap behind it, may have anything behind them. -/
theorem before_requirements (modifiers : List RequiresModifier) :
    Before TokenKind.isAny (all (modifiers.map fun m => [.name m.text, gap])) := by
  induction modifiers with
  | nil => exact before_nil
  | cons m modifiers ih =>
    have hfirst : Before TokenKind.isAny [.name m.text, gap] :=
      before_cons_cons.mpr ⟨rfl, before_gap⟩
    exact hfirst.append_any ih

/-! #### Parts of trees -/

/-- What stands before a selector, with its dot, may have behind it what selectors go on with. -/
theorem before_qualified {o : Option Script} (h : o.toList.Forall (Before TokenKind.docks)) :
    Before TokenKind.opensMember (Tree.qualifiedScript o) := by
  refine before_optional fun s hs => ?_
  simpa [all] using (forall_of_toList h s hs).append_cons (m := .sign .dot) rfl before_dot

/-- Parameters without types may have behind them what docks. -/
theorem before_implicit (names : List String) (inParens : Bool) :
    Before TokenKind.docks (Tree.implicitScript names inParens) := by
  have hall : Seamed [[.sign .leftParen], Script.names [.sign .comma, gap] names,
      [.sign .rightParen]] := by
    simp +decide only [Seamed, Leads, before_fence, before_names, before_cons_cons, before_gap,
      starts_cons, ne_eq, true_and, and_true, true_or, or_true]
  unfold Tree.implicitScript
  split
  · exact before_name _
  · exact hall.before

/-- Pairs of brackets with their annotations may have anything behind them. -/
theorem before_dimensions {ds : List Script} {annotations : List (List Script)}
    (h : ds.Forall (Before TokenKind.isAny))
    (hannotations : annotations.Forall fun ss => ss.Forall (Before TokenKind.docks)) :
    Before TokenKind.isAny (Tree.dimensionScripts ds annotations) := by
  fun_induction Tree.dimensionScripts ds annotations with
  | case1 => exact before_nil
  | case2 d ds ih =>
    obtain ⟨hd, hds⟩ := (List.forall_cons ..).mp h
    simpa [all] using hd.append_any (ih hds hannotations)
  | case3 d ds rest ih =>
    obtain ⟨hd, hds⟩ := (List.forall_cons ..).mp h
    simpa [all] using hd.append_any (ih hds ((List.forall_cons ..).mp hannotations).2)
  | case4 d ds annotations rest _ ih =>
    obtain ⟨hd, hds⟩ := (List.forall_cons ..).mp h
    obtain ⟨hfirst, hrest⟩ := (List.forall_cons ..).mp hannotations
    have hall := hd.append_any (ih hds hrest)
    simpa [all] using before_gap.append_any ((before_prefixes hfirst).append_any hall)

/-- Pairs of brackets with their annotations dock. -/
theorem starts_dimensions {ds : List Script} {annotations : List (List Script)}
    (h : ds.Forall (Starts (IsOf p))) : Starts (IsOf p) (Tree.dimensionScripts ds annotations) := by
  fun_induction Tree.dimensionScripts ds annotations with
  | case1 => exact starts_nil
  | case2 d ds ih | case3 d ds _ ih =>
    obtain ⟨hd, hds⟩ := (List.forall_cons ..).mp h
    exact starts_all ⟨hd, .inr ⟨ih hds, .inr trivial⟩⟩
  | case4 => exact starts_cons.mpr trivial

/-- A pair of brackets starts each dimension of a new array. -/
theorem forall_newDimensions {P : Script → Prop} {sizes : List Script} {extra : Nat}
    (hsizes : sizes.Forall fun s => P (all [[.sign .leftBracket], s, [.sign .rightBracket]]))
    (hextra : P [.sign .leftBracket, .sign .rightBracket]) :
    (sizes.map (fun s => all [[.sign .leftBracket], s, [.sign .rightBracket]]) ++
      List.replicate extra [Mark.sign .leftBracket, .sign .rightBracket]).Forall P := by
  refine List.forall_append.mpr ⟨(List.forall_map_iff _).mpr hsizes, ?_⟩
  refine List.forall_iff_forall_mem.mpr fun s hs => ?_
  rw [List.eq_of_mem_replicate hs]
  exact hextra

/-- The dimensions of a new array may have anything behind them. -/
theorem before_newDimensions {sizes : List Script} {extra : Nat}
    {annotations : List (List Script)} (h : sizes.Forall (Before TokenKind.docks))
    (hannotations : annotations.Forall fun ss => ss.Forall (Before TokenKind.docks)) :
    Before TokenKind.isAny (Tree.newDimensionsScript sizes extra annotations) := by
  have hclosing : Before TokenKind.isAny [.sign .rightBracket] := before_fence rfl
  have hopening : Before TokenKind.isAny [.sign .leftBracket] := before_fence rfl
  refine before_dimensions (forall_newDimensions (h.imp fun s hs => ?_) ?_) hannotations
  · have hsize := hs.append_cons (m := .sign .rightBracket) rfl hclosing
    simpa [all] using hopening.append_any hsize
  · exact before_cons_cons.mpr ⟨rfl, hclosing⟩

/-- The dimensions of a new array dock. -/
theorem starts_newDimensions {sizes : List Script} {extra : Nat}
    {annotations : List (List Script)} :
    Starts (IsOf TokenKind.docks) (Tree.newDimensionsScript sizes extra annotations) := by
  refine starts_dimensions (forall_newDimensions ?_ (starts_cons.mpr rfl))
  exact List.forall_iff_forall_mem.mpr fun s _ => starts_cons.mpr rfl

/-- The label of a switch may have behind it what docks. -/
theorem before_labels {isDefault : Bool} {labels : List Script} {guard : Option Script}
    (h : labels.Forall (Before TokenKind.docks))
    (hguard : guard.toList.Forall (Before TokenKind.docks)) :
    Before TokenKind.docks (Tree.labelsScript isDefault labels guard) := by
  have hwhen : Before TokenKind.isAny [gap, .name "when", gap] :=
    before_cons_cons.mpr ⟨rfl, before_cons_cons.mpr ⟨rfl, before_gap⟩⟩
  have hcase : Before TokenKind.isAny [.keyword .case, gap] :=
    before_cons_cons.mpr ⟨rfl, before_gap⟩
  unfold Tree.labelsScript
  split
  · exact before_keyword .default
  · refine Seamed.before ⟨⟨⟨trivial, .inr (.inl ⟨before_optionalLast hwhen hguard, trivial⟩)⟩,
      .inr (.inl ⟨before_commas h, starts_optional fun _ _ => starts_cons.mpr trivial,
        .inr trivial⟩)⟩, .inl hcase⟩

/-- The end of a method may have behind it what docks. -/
theorem before_methodEnd {o : Option Script} (h : o.toList.Forall (Before TokenKind.docks)) :
    Before TokenKind.docks (Tree.methodEndScript o) := by
  cases o with
  | none => exact before_last rfl
  | some s =>
    have hs : Before TokenKind.docks s := h
    simpa [all, Tree.methodEndScript] using before_gap.append_any hs

/-- The end of a method is a semicolon, or a gap and a body. -/
theorem starts_methodEnd {P : Mark → Prop} {o : Option Script} (hgap : P gap)
    (hsemicolon : P (.sign .semicolon)) : Starts P (Tree.methodEndScript o) := by
  cases o with
  | none => exact starts_cons.mpr hsemicolon
  | some s => exact starts_cons.mpr hgap

/-- The body of an enumeration may have anything behind it. -/
theorem before_enum {constants body : List Script} (h : constants.Forall (Before TokenKind.docks))
    (hbody : body.Forall (Before TokenKind.docks)) :
    Before TokenKind.isAny (Tree.enumScript constants body) := by
  have hclosing : Before TokenKind.isAny [.sign .rightBrace] := before_fence rfl
  have hopening : Before TokenKind.isAny [.sign .leftBrace, gap] :=
    before_cons_cons.mpr ⟨rfl, before_gap⟩
  have hconstants := before_commas h
  unfold Tree.enumScript
  split
  · exact before_cons_cons.mpr ⟨rfl, hclosing⟩
  split
  · simpa [all] using hopening.append_any
      (hconstants.append_cons (m := gap) trivial (before_gap.append_any hclosing))
  · have hsemicolon : Before TokenKind.isAny [.sign .semicolon, gap] :=
      before_cons_cons.mpr ⟨rfl, before_gap⟩
    have hlines := hsemicolon.append_any ((before_prefixes hbody).append_any hclosing)
    simpa [all, prefixes] using
      hopening.append_any (hconstants.append_cons (m := .sign .semicolon) rfl hlines)

/-- Type parameters with a gap behind them may have anything behind them. -/
theorem before_leadingParameters {ss : List Script} (h : ss.Forall (Before TokenKind.docks))
    (hstarts : ss.Forall (Starts (IsOf TokenKind.opensType))) :
    Before TokenKind.isAny (Tree.leadingParametersScript ss) := by
  unfold Tree.leadingParametersScript
  split
  · exact before_nil
  · simpa [all] using (before_angles h hstarts).append_cons (m := gap) trivial before_gap

/-- The modules that something is exported to may have behind them what docks. -/
theorem before_target (modules : List (List String)) :
    Before TokenKind.docks (Tree.targetScript modules) := by
  have hto : Before TokenKind.isAny [gap, .name "to", gap] :=
    before_cons_cons.mpr ⟨rfl, before_cons_cons.mpr ⟨rfl, before_gap⟩⟩
  have hmodules : (modules.map dots).Forall (Before TokenKind.docks) :=
    (List.forall_map_iff _).mpr (List.forall_iff_forall_mem.mpr fun ns _ => before_dots ns)
  unfold Tree.targetScript
  split
  · exact before_nil
  · simpa [all] using hto.append_any (before_commas hmodules)

/-- The modules that something is exported to have a gap before them. -/
theorem starts_target {P : Mark → Prop} (h : P gap) (modules : List (List String)) :
    Starts P (Tree.targetScript modules) := by
  unfold Tree.targetScript
  split
  · exact starts_nil
  · exact starts_cons.mpr h

/-- A group ends with a colon if it has no statements, so that only a gap may follow. -/
theorem before_group {labels statements : List Script}
    (h : labels.Forall (Before TokenKind.docks))
    (hstatements : statements.Forall (Before TokenKind.docks)) :
    Before TokenKind.isNone (Tree.groupScript labels statements) := by
  have hlabels : Before TokenKind.isNone
      (join [gap] (labels.map fun s => all [s, [.sign .colon]])) := by
    refine before_join before_gap (List.cons_ne_nil _ _) (starts_cons.mpr trivial) ?_
    refine (List.forall_map_iff _).mpr (h.imp fun s hs => ?_)
    simpa [all] using hs.append_cons (m := .sign .colon) rfl (before_isNone _)
  have hrest := before_leading (hstatements.imp fun s hs =>
    hs.mono (p := TokenKind.isNone) fun _ hk => absurd hk Bool.false_ne_true)
  rw [Tree.groupScript, all, List.flatten_cons, List.flatten_cons, List.flatten_nil,
    List.append_nil]
  exact hlabels.append (fun more hmore => (starts_leading trivial).append (.inr hmore)) hrest

/-- The sections of a file may have behind them what docks. -/
theorem before_sections {package module : Option Script} {imports types : List Script}
    (hpackage : package.toList.Forall (Before TokenKind.docks))
    (himports : imports.Forall (Before TokenKind.docks))
    (htypes : types.Forall (Before TokenKind.docks))
    (hmodule : module.toList.Forall (Before TokenKind.docks)) :
    Before TokenKind.docks (Tree.sectionsScript package imports types module) := by
  have himported : Before TokenKind.docks (join [gap] imports) :=
    before_join before_gap (List.cons_ne_nil _ _) (starts_cons.mpr trivial) himports
  refine before_join (before_cons_cons.mpr ⟨rfl, before_gap⟩) (List.cons_ne_nil _ _)
    (starts_cons.mpr trivial) ?_
  simp only [List.forall_append]
  refine ⟨⟨⟨hpackage, ?_⟩, htypes⟩, hmodule⟩
  split
  · trivial
  · exact himported

end Script

end JavaSyntax
