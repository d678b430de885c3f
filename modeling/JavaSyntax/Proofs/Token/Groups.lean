import JavaSyntax.Proofs.Token.Passed

/-!
# Groups of tokens

Brackets of all three kinds group what stands between them. Here the groups are counted that are
open behind some tokens, and it is said what it means that no arrow stands outside all groups. To
split a token makes no difference to either.
-/

namespace JavaSyntax

/-! ### Brackets -/

namespace TokenKind

/-- Whether a kind opens a group: the three kinds of brackets count alike. -/
def opensGroup : TokenKind → Bool
  | .leftParen | .leftBracket | .leftBrace => true
  | _ => false

/-- Whether a kind closes a group. -/
def closesGroup : TokenKind → Bool
  | .rightParen | .rightBracket | .rightBrace => true
  | _ => false

/-- What closes a group does not open one. -/
theorem opensGroup_of_closesGroup {k : TokenKind} (h : k.closesGroup = true) :
    k.opensGroup = false := by
  cases k <;> first | rfl | cases h

end TokenKind

/-- The number of groups that are open behind some kinds, if none of them closes more groups than
are open. -/
def openGroups (depth : Nat) : List TokenKind → Option Nat
  | [] => some depth
  | k :: ks =>
    if k.opensGroup then openGroups (depth + 1) ks
    else if k.closesGroup then if depth = 0 then none else openGroups (depth - 1) ks
    else openGroups depth ks

/-- The groups that are open behind some kinds are counted on from there. -/
theorem openGroups_append (depth : Nat) (ks ls : List TokenKind) :
    openGroups depth (ks ++ ls) = (openGroups depth ks).bind (openGroups · ls) := by
  induction ks generalizing depth with
  | nil => rfl
  | cons k ks ih =>
    rw [List.cons_append, openGroups, openGroups]
    split
    · exact ih _
    split
    · split
      · rfl
      · exact ih _
    · exact ih _

/-- Groups that were open before stay open. -/
theorem openGroups_add {depth d : Nat} {ks : List TokenKind} (h : openGroups depth ks = some d)
    (e : Nat) : openGroups (depth + e) ks = some (d + e) := by
  induction ks generalizing depth with
  | nil =>
    cases h
    rfl
  | cons k ks ih =>
    rw [openGroups] at h ⊢
    split at h
    · rename_i hopens
      rw [if_pos hopens, Nat.add_right_comm]
      exact ih h
    rename_i hopens
    rw [if_neg hopens]
    split at h
    · rename_i hcloses
      rw [if_pos hcloses]
      split at h
      · cases h
      · rename_i hdepth
        rw [if_neg (by omega), show depth + e - 1 = depth - 1 + e by omega]
        exact ih h
    · rename_i hcloses
      rw [if_neg hcloses]
      exact ih h

/-! ### Arrows outside all groups -/

/-- The number of groups that are open behind a token. If arrows are watched, one that stands
outside all groups is refused. -/
def TokenKind.shift (watched : Bool) (depth : Nat) (kind : TokenKind) : Option Nat :=
  if kind.opensGroup then some (depth + 1)
  else if kind.closesGroup then if depth = 0 then none else some (depth - 1)
  else if watched && depth == 0 && kind == .arrow then none
  else some depth

/-- Whether a kind is no bracket, no arrow and not the end of the text. -/
def TokenKind.isNeutral : TokenKind → Bool
  | .leftParen | .rightParen | .leftBracket | .rightBracket | .leftBrace | .rightBrace | .arrow
  | .endOfInput => false
  | _ => true

/-- A neutral kind leaves the groups as they are, whether arrows are watched or not. -/
theorem TokenKind.shift_of_isNeutral {k : TokenKind} (h : k.isNeutral = true) (watched : Bool)
    (depth : Nat) : k.shift watched depth = some depth := by
  cases k <;> first | exact Bool.noConfusion h | simp [shift, opensGroup, closesGroup]

/-- The number of groups that are open behind some kinds, if none of them closes more groups than
are open, nor is an arrow that stands outside all groups if arrows are watched. -/
def nest (watched : Bool) (depth : Nat) (ks : List TokenKind) : Option Nat :=
  ks.foldlM (TokenKind.shift watched) depth

section Nest

variable {watched : Bool} {depth d : Nat} {k : TokenKind} {ks ls : List TokenKind}

/-- The groups behind a kind and more are counted kind by kind. -/
theorem nest_cons :
    nest watched depth (k :: ks) = (k.shift watched depth).bind (nest watched · ks) :=
  List.foldlM_cons

/-- The groups behind some kinds are counted on from there. -/
theorem nest_append :
    nest watched depth (ks ++ ls) = (nest watched depth ks).bind (nest watched · ls) :=
  List.foldlM_append

/-- Without an eye on arrows, the groups are merely counted. -/
theorem nest_false : nest false depth ks = openGroups depth ks := by
  induction ks generalizing depth with
  | nil => rfl
  | cons k ks ih =>
    rw [nest_cons, openGroups, TokenKind.shift]
    split
    · exact ih
    split
    · split
      · rfl
      · exact ih
    · exact ih

/-- What is allowed while arrows are watched is allowed otherwise, and opens as many groups. -/
theorem TokenKind.shift_false (h : k.shift watched depth = some d) :
    k.shift false depth = some d := by
  cases watched with
  | false => exact h
  | true =>
    rw [shift] at h ⊢
    grind

/-- Counting without a refusal gives the number of open groups. -/
theorem openGroups_of_nest (h : nest watched depth ks = some d) : openGroups depth ks = some d := by
  rw [← nest_false]
  induction ks generalizing depth with
  | nil => exact h
  | cons k ks ih =>
    rw [nest_cons] at h ⊢
    obtain ⟨e, hshift, hrest⟩ := Option.bind_eq_some_iff.mp h
    rw [TokenKind.shift_false hshift, Option.bind_some]
    exact ih hrest

/-- No arrow that is watched stands outside all groups. -/
theorem openGroups_ne_zero_of_nest (h : nest true depth (ks ++ .arrow :: ls) = some d) :
    openGroups depth ks ≠ some 0 := by
  rw [nest_append] at h
  obtain ⟨e, hfront, hrest⟩ := Option.bind_eq_some_iff.mp h
  rw [openGroups_of_nest hfront]
  rintro ⟨⟩
  cases hrest

/-- Inside a group, no arrow stands outside all groups. -/
theorem nest_succ (h : openGroups depth ks = some d) :
    nest watched (depth + 1) ks = some (d + 1) := by
  rw [← nest_false] at h
  induction ks generalizing depth with
  | nil =>
    cases h
    rfl
  | cons k ks ih =>
    rw [nest_cons] at h ⊢
    obtain ⟨e, hshift, hrest⟩ := Option.bind_eq_some_iff.mp h
    have hinside : k.shift watched (depth + 1) = some (e + 1) := by
      rw [TokenKind.shift] at hshift ⊢
      grind
    rw [hinside, Option.bind_some]
    exact ih hrest

end Nest

/-! ### Split tokens -/

namespace SplitsTo

variable {tokens buffer front back : List Token} {splits : List (Nat × Token)} {t : Token}

/-- No part of a split token is a bracket or an arrow, and neither is the token. -/
theorem isNeutral_of_afterGreater? {kind rest : TokenKind} (h : kind.afterGreater? = some rest) :
    kind.isNeutral = true ∧ rest.isNeutral = true := by
  cases kind <;> cases h <;> exact ⟨rfl, rfl⟩

/-- Splits do not change how many groups are open. -/
theorem nest_eq (h : SplitsTo tokens splits buffer) (watched : Bool) (depth : Nat) :
    nest watched depth (buffer.map (·.kind)) = nest watched depth (tokens.map (·.kind)) := by
  induction h with
  | whole => rfl
  | @split splits pre post t kind h hkind ih =>
    rw [← ih, List.map_append, List.map_append, nest_append, nest_append]
    congr 1
    funext d
    obtain ⟨hwhole, hrest⟩ := isNeutral_of_afterGreater? hkind
    have hhead : TokenKind.greater.isNeutral = true := rfl
    change ((TokenKind.greater.shift watched d).bind fun e => (kind.shift watched e).bind _) =
      (t.kind.shift watched d).bind _
    simp only [TokenKind.shift_of_isNeutral hhead, TokenKind.shift_of_isNeutral hwhole,
      TokenKind.shift_of_isNeutral hrest, Option.bind_some]

/-- The last part of a token ends where the token does. -/
theorem getLast?_stop (h : SplitsTo tokens splits buffer) :
    buffer.getLast?.map (·.span.stop) = tokens.getLast?.map (·.span.stop) := by
  induction h with
  | whole => rfl
  | @split splits pre post t kind h hkind ih =>
    rw [← ih]
    cases post with
    | nil => simp [Token.greaterTail]
    | cons => simp

/-- A token with which a node can start is no part of a split one, so it cuts both the whole tokens
and the buffer in two. -/
theorem cut (h : SplitsTo tokens splits buffer) (hbuffer : buffer = front ++ t :: back)
    (ht : t.kind.leads = true) :
    ∃ front' back' splits' splits'', tokens = front' ++ t :: back' ∧
      SplitsTo front' splits' front ∧ SplitsTo back' splits'' back := by
  induction h generalizing front back with
  | whole => exact ⟨front, back, [], [], hbuffer, .whole, .whole⟩
  | @split splits pre post u kind h hkind ih =>
    have hhead : t ≠ u.greaterHead := by
      rintro rfl
      cases ht
    have htail : t ≠ u.greaterTail kind := by
      rintro rfl
      exact Bool.noConfusion ((TokenKind.leads_of_afterGreater? hkind).1.symm.trans ht)
    rcases List.append_eq_append_iff.mp hbuffer with ⟨more, hfront, hmore⟩ | ⟨more, hpre, hmore⟩
    · -- the parts stand before the token that cuts
      match more, hmore with
      | [], hmore => exact absurd (List.cons.inj hmore).1.symm hhead
      | [_], hmore => exact absurd (List.cons.inj (List.cons.inj hmore).2).1.symm htail
      | _ :: _ :: more, hmore =>
        obtain ⟨rfl, htwo⟩ := List.cons.inj hmore
        obtain ⟨rfl, rfl⟩ := List.cons.inj htwo
        have hbuffer : pre ++ u :: (more ++ t :: back) = pre ++ u :: more ++ t :: back := by simp
        obtain ⟨front', back', splits', splits'', htokens, hsplit, hback⟩ := ih hbuffer
        exact ⟨front', back', _, splits'', htokens, hfront ▸ hsplit.split hkind, hback⟩
    · -- the parts stand behind it
      match more, hmore with
      | [], hmore => exact absurd (List.cons.inj hmore).1 hhead
      | _ :: more, hmore =>
        obtain ⟨rfl, rfl⟩ := List.cons.inj hmore
        have hbuffer : pre ++ u :: post = front ++ t :: (more ++ u :: post) := by simp [hpre]
        obtain ⟨front', back', splits', splits'', htokens, hsplit, hback⟩ := ih hbuffer
        exact ⟨front', back', splits', _, htokens, hsplit, hback.split hkind⟩

end SplitsTo

end JavaSyntax
