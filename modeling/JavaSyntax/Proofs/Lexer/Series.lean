import JavaSyntax.Proofs.Lexer.Tiling

/-!
# Calls in a row

The lexer may be called again after any answer. At the end of the text it delivers the end
once more. Where the automaton cannot go on, it refuses in the same way once more. A lexeme
that it refused as a whole is behind it, and what it kept before that lexeme goes to the next
token that it delivers. Nothing of the text is lost or taken twice on the way.
-/

namespace JavaSyntax

namespace Lexer

/-- The lexer after a number of calls, whatever they came to. -/
def after (l : Lexer) : Nat → Lexer
  | 0 => l
  | n + 1 => (l.after n).lex.lexer

/-- Calls in a row add up. -/
theorem after_add (l : Lexer) (m n : Nat) : l.after (m + n) = (l.after m).after n := by
  induction n with
  | zero => rfl
  | succ n ih =>
    rw [← Nat.add_assoc]
    change (l.after (m + n)).lex.lexer = _
    rw [ih]
    rfl

/-- The first of some calls can be taken off. -/
theorem after_succ (l : Lexer) (n : Nat) : l.after (n + 1) = l.lex.lexer.after n := by
  rw [Nat.add_comm, after_add]
  rfl

/-! ### Before the lexeme at which a call ends -/

/-- The lexer after one lexeme that it keeps for the next token, if such a lexeme is ahead. -/
def skipOne? (l : Lexer) : Option Lexer :=
  match l.rest with
  | [] => none
  | c :: cs =>
    match Scan.start c cs with
    | .lexeme (.affiliation style) taken rest => (l.keep style taken.reverse rest).toOption
    | _ => none

/-- A lexer skips one lexeme where the automaton reads one that is kept. -/
theorem skipOne?_eq_some {l m : Lexer} :
    l.skipOne? = some m ↔ ∃ c cs style taken rest, l.rest = c :: cs ∧
      Scan.start c cs = .lexeme (.affiliation style) taken rest ∧
      l.keep style taken.reverse rest = .ok m := by
  constructor
  · intro h
    unfold skipOne? at h
    split at h
    · cases h
    · rename_i c cs hrest
      split at h
      · rename_i style taken rest hscan
        refine ⟨c, cs, style, taken, rest, hrest, hscan, ?_⟩
        cases hkeep : l.keep style taken.reverse rest with
        | error outcome =>
          rw [hkeep] at h
          cases h
        | ok next =>
          rw [hkeep] at h
          cases h
          rfl
      · cases h
  · rintro ⟨c, cs, style, taken, rest, hrest, hscan, hkeep⟩
    simp only [skipOne?, hrest, hscan, hkeep]
    rfl

/-- To skip a lexeme leaves fewer characters. -/
theorem length_rest_of_skipOne? {l m : Lexer} (h : l.skipOne? = some m) :
    m.rest.length < l.rest.length := by
  obtain ⟨c, cs, style, taken, rest, hrest, hscan, hkeep⟩ := skipOne?_eq_some.mp h
  have hlength := Scan.length_rest_le_of_start hscan
  rw [rest_keep hkeep, hrest, List.length_cons]
  omega

/-- The lexer before the first lexeme that it does not keep. -/
def skip (l : Lexer) : Lexer :=
  match h : l.skipOne? with
  | some m =>
    have : m.rest.length < l.rest.length := length_rest_of_skipOne? h
    m.skip
  | none => l
termination_by l.rest.length

/-- To skip all that is kept is to skip. -/
theorem skips_skip (l : Lexer) : Skips l l.skip := by
  fun_induction skip l with
  | case1 l m hone _ ih =>
    obtain ⟨c, cs, style, taken, rest, hrest, hscan, hkeep⟩ := skipOne?_eq_some.mp hone
    exact .keep hrest hscan hkeep ih
  | case2 l hone => exact .refl l

/-- Behind all that is kept there is nothing to skip. -/
theorem skipOne?_skip (l : Lexer) : l.skip.skipOne? = none := by
  fun_induction skip l with
  | case1 l m hone _ ih => exact ih
  | case2 l hone => exact hone

/-- Where there is nothing to skip, skipping stays in place. -/
theorem Skips.eq_of_skipOne? {l m : Lexer} (h : Skips l m) (hone : l.skipOne? = none) : m = l := by
  cases h with
  | refl => rfl
  | keep hrest hscan hkeep _ =>
    rw [skipOne?_eq_some.mpr ⟨_, _, _, _, _, hrest, hscan, hkeep⟩] at hone
    cases hone

/-- A call ends at the first lexeme that is not kept. -/
theorem ends_skip (l : Lexer) : Ends l.skip l.lex := by
  obtain ⟨m, hskips, hends⟩ := exists_skips_ends_lex l.skip
  obtain rfl := hskips.eq_of_skipOne? l.skipOne?_skip
  rwa [← l.skips_skip.lex_eq] at hends

/-! ### Two families of errors -/

/-- The fault of the automaton that a call comes to. -/
def fault? (l : Lexer) : Option LexFault :=
  match l.skip.rest with
  | [] => none
  | c :: cs =>
    match Scan.start c cs with
    | .fault fault _ _ => some fault
    | .lexeme .. => none

/-- The whole lexeme that a call refuses. -/
def refused? (l : Lexer) : Option Fragment :=
  match l.lex.result, l.skip.rest with
  | .error _, c :: cs =>
    match Scan.start c cs with
    | .fault .. => none
    | .lexeme _ taken _ => some ⟨l.skip.spanOf taken.reverse, String.ofList taken.reverse⟩
  | _, _ => none

variable {l m : Lexer} {e : LexError} {t : Token}

/-- Only the automaton makes the lexer stay where it is. -/
theorem lex_of_fault? {fault : LexFault} (h : l.fault? = some fault) :
    l.lex.lexer = l.skip ∧ ∃ e, l.lex.result = .error e ∧ e.kind = .ofLexFault fault := by
  have hends := l.ends_skip
  unfold fault? at h
  generalize l.lex = outcome at hends
  cases hends with
  | finished hrest =>
    rw [hrest] at h
    cases h
  | @stuck c cs taken fault' next hrest hscan =>
    simp only [hrest, hscan, Option.some.injEq] at h
    subst h
    exact ⟨rfl, _, rfl, rfl⟩
  | refused hrest hscan | tooLong hrest hscan | delivered hrest hscan =>
    simp only [hrest, hscan] at h
    cases h

/-- A whole lexeme that is refused has been passed. What was kept before it is still
pending. -/
theorem lex_of_refused? {f : Fragment} (h : l.refused? = some f) :
    (∃ e, l.lex.result = .error e) ∧ ∃ chars rest, l.skip.rest = chars ++ rest ∧
      f = ⟨l.skip.spanOf chars, String.ofList chars⟩ ∧
      l.lex.lexer = l.skip.pass chars rest := by
  have hends := l.ends_skip
  unfold refused? at h
  generalize l.lex = outcome at hends h
  cases hends with
  | finished hrest => cases h
  | stuck hrest hscan =>
    simp only [refuse, hrest, hscan] at h
    cases h
  | refused hrest hscan | tooLong hrest hscan =>
    simp only [refuse, hrest, hscan, Option.some.injEq] at h
    subst h
    refine ⟨⟨_, rfl⟩, _, _, ?_, rfl, rfl⟩
    rw [hrest, Scan.append_rest_of_start hscan]
  | delivered => cases h

/-- Every error is of one of the two families. -/
theorem fault?_or_refused? (h : l.lex.result = .error e) :
    (∃ fault, l.fault? = some fault) ∨ ∃ f, l.refused? = some f := by
  have hends := l.ends_skip
  unfold fault? refused?
  generalize l.lex = outcome at hends h
  cases hends with
  | finished | delivered => cases h
  | stuck hrest hscan =>
    left
    simp only [hrest, hscan]
    exact ⟨_, rfl⟩
  | refused hrest hscan | tooLong hrest hscan =>
    right
    simp only [refuse, hrest, hscan]
    exact ⟨_, rfl⟩

/-! ### Standing still -/

/-- A lexer that a call does not change is not changed by any number of calls. -/
theorem after_of_lexer_eq (h : l.lex.lexer = l) (n : Nat) : l.after n = l := by
  induction n with
  | zero => rfl
  | succ n ih =>
    change (l.after n).lex.lexer = l
    rw [ih, h]

/-- After a fault of the automaton all calls are alike. -/
theorem after_of_fault? {fault : LexFault} (h : l.fault? = some fault) (n : Nat) :
    l.after (n + 1) = l.skip := by
  obtain ⟨hlexer, -⟩ := lex_of_fault? h
  have hstands : l.skip.lex.lexer = l.skip := by rw [← l.skips_skip.lex_eq, hlexer]
  rw [after_succ, hlexer]
  exact after_of_lexer_eq hstands n

/-- After the end of the text all calls are alike. -/
theorem after_of_isEnd (h : l.lex.result = .ok t) (hend : t.isEnd = true) (n : Nat) :
    l.after (n + 1) = l.lex.lexer ∧
      (l.after (n + 1)).lex.result = .ok { t with affiliations := [] } := by
  obtain ⟨hrest, hlex⟩ := l.ends_skip.eq_finish h hend
  rw [hlex] at h
  have hagain : l.lex.lexer.lex = l.lex.lexer.finish := by
    rw [hlex]
    exact lex_of_nil hrest
  have hstands : l.lex.lexer.lex.lexer = l.lex.lexer := by
    rw [hagain, hlex]
    rfl
  have hafter : l.after (n + 1) = l.lex.lexer := by
    rw [after_succ]
    exact after_of_lexer_eq hstands n
  refine ⟨hafter, ?_⟩
  rw [hafter, hagain, hlex]
  cases h
  rfl

/-! ### What is pending -/

/-- What is pending stays pending while a lexer skips. -/
theorem Skips.pending_isPrefix (h : Skips l m) : l.pending.toList <+: m.pending.toList := by
  induction h with
  | refl => exact List.prefix_refl _
  | keep hrest hscan hkeep _ ih =>
    refine List.IsPrefix.trans ?_ ih
    rw [(keep_eq_ok hkeep).2.2, Array.toList_push]
    exact List.prefix_append _ _

/-- A refusal gives nothing away that is pending. -/
theorem pending_of_error (h : l.lex.result = .error e) : l.lex.lexer.pending = l.skip.pending := by
  have hends := l.ends_skip
  generalize l.lex = outcome at hends h
  cases hends with
  | finished | delivered => cases h
  | stuck | refused | tooLong => rfl

/-- A token takes everything that is pending, and the end of the text is a token without
characters. -/
theorem lex_of_ok (h : l.lex.result = .ok t) :
    l.lex.lexer.pending = #[] ∧ t.affiliations = l.skip.pending.toList ∧
      ∃ chars rest, l.skip.rest = chars ++ rest ∧ t.span = l.skip.spanOf chars ∧
        t.source = String.ofList chars ∧ l.lex.lexer.rest = rest ∧
        l.lex.lexer.position = l.skip.position.advanceChars chars := by
  have hends := l.ends_skip
  generalize l.lex = outcome at hends h
  cases hends with
  | finished hrest =>
    cases h
    exact ⟨rfl, rfl, [], [], hrest, rfl, rfl, hrest, rfl⟩
  | stuck | refused | tooLong => cases h
  | @delivered c cs taken rest kind kind' value hrest hscan hclassify =>
    cases h
    refine ⟨rfl, rfl, taken.reverse, rest, ?_, rfl, rfl, rfl, rfl⟩
    rw [hrest, Scan.append_rest_of_start hscan]

/-- What is pending goes to the first token that is delivered. -/
theorem pending_isPrefix_of_first {n : Nat} (h : (l.after n).lex.result = .ok t)
    (herrors : ∀ k < n, ∃ e, (l.after k).lex.result = .error e) :
    l.pending.toList <+: t.affiliations := by
  induction n generalizing l with
  | zero =>
    rw [(lex_of_ok h).2.1]
    exact l.skips_skip.pending_isPrefix
  | succ n ih =>
    obtain ⟨e, (herror : l.lex.result = .error e)⟩ := herrors 0 (Nat.succ_pos n)
    have htail : l.lex.lexer.pending.toList <+: t.affiliations := by
      apply ih
      · rwa [← after_succ]
      · intro k hk
        rw [← after_succ]
        exact herrors (k + 1) (Nat.succ_lt_succ hk)
    refine List.IsPrefix.trans l.skips_skip.pending_isPrefix ?_
    rwa [← pending_of_error herror]

end Lexer

/-! ### What has been covered -/

/-- Tiles come in the order of their offsets. -/
theorem Tiles.sorted {text : String} {a b : Nat} {fs : List Fragment} (h : Tiles text a fs b) :
    fs.Pairwise fun f g => f.span.start.offset ≤ g.span.start.offset := by
  have hbound {a b : Nat} {fs : List Fragment} (h : Tiles text a fs b) :
      ∀ f ∈ fs, a ≤ f.span.start.offset := by
    induction h with
    | nil => exact nofun
    | @cons f fs stop hsize _ _ ih =>
      intro g hg
      rcases List.mem_cons.mp hg with rfl | hg
      · exact Nat.le_refl _
      · have := ih g hg
        omega
  induction h with
  | nil => exact .nil
  | @cons f fs stop hsize _ htail ih =>
    refine .cons ?_ ih
    intro g hg
    have := hbound htail g hg
    omega

namespace Lexer

variable {text : String} {fs before : List Fragment} {l m : Lexer}

/-- What one call hands over or refuses: a token with everything before it, or a lexeme. -/
def settled (l : Lexer) : List Fragment :=
  match l.lex.result with
  | .ok t => t.fragments
  | .error _ => l.refused?.toList

/-- Skipped text is covered by what is pending. -/
theorem Skips.hasCovered (hskips : Skips l m) (h : l.HasCovered text fs)
    (hperm : fs.Perm (before ++ l.pendingFragments)) :
    ∃ gs, gs.Perm (before ++ m.pendingFragments) ∧ m.HasCovered text gs := by
  induction hskips generalizing fs with
  | refl => exact ⟨fs, hperm, h⟩
  | @keep l m n c cs taken rest style hrest hscan hkeep _ ih =>
    obtain ⟨hm, hposition, hpending⟩ := keep_eq_ok hkeep
    have happend := Scan.append_rest_of_start hscan
    refine ih (h.add (by rw [hrest, happend]) hm hposition) ?_
    simpa [pendingFragments, hpending, Affiliation.fragment] using
      hperm.append_right [⟨l.spanOf taken.reverse, String.ofList taken.reverse⟩]

/-- Whatever a call comes to, what it settles and what it leaves pending are together what it
has covered. -/
theorem HasCovered.lex (h : l.HasCovered text fs)
    (hperm : fs.Perm (before ++ l.pendingFragments)) :
    ∃ gs, gs.Perm (before ++ l.settled ++ l.lex.lexer.pendingFragments) ∧
      l.lex.lexer.HasCovered text gs := by
  obtain ⟨gs, hgs, hskip⟩ := l.skips_skip.hasCovered h hperm
  unfold settled
  cases hresult : l.lex.result with
  | ok t =>
    obtain ⟨hpending, haffiliations, chars, rest, hchars, hspan, hsource, hrest, hposition⟩ :=
      lex_of_ok hresult
    refine ⟨_, ?_, hskip.add hchars hrest hposition⟩
    simpa [pendingFragments, hpending, Token.fragments, haffiliations, hspan, hsource] using
      hgs.append_right [⟨l.skip.spanOf chars, String.ofList chars⟩]
  | error e =>
    cases hrefused : l.refused? with
    | some f =>
      obtain ⟨-, chars, rest, hchars, rfl, hlexer⟩ := lex_of_refused? hrefused
      have hsame : l.lex.lexer.pendingFragments = l.skip.pendingFragments := by
        rw [hlexer]
        rfl
      have hcovered : l.lex.lexer.HasCovered text (gs ++ [_]) :=
        hskip.add hchars (by rw [hlexer]; rfl) (by rw [hlexer]; rfl)
      refine ⟨_, (hgs.append_right _).trans ?_, hcovered⟩
      -- the lexeme stands after what is pending but is settled first
      rw [hsame, List.append_assoc, List.append_assoc]
      exact List.Perm.append_left before List.perm_append_comm
    | none =>
      obtain ⟨fault, hfault⟩ : ∃ fault, l.fault? = some fault := by
        rcases fault?_or_refused? hresult with hfault | ⟨f, hf⟩
        · exact hfault
        · rw [hrefused] at hf
          cases hf
      rw [(lex_of_fault? hfault).1]
      exact ⟨gs, by simpa using hgs, hskip⟩

/-- What any number of calls settle and leave pending is together what they have covered. -/
theorem hasCovered_after (text : String) (preferences : LexicalPreferences) (n : Nat) :
    ∃ fs, fs.Perm ((List.range n).flatMap (fun k => ((ofText text preferences).after k).settled) ++
        ((ofText text preferences).after n).pendingFragments) ∧
      ((ofText text preferences).after n).HasCovered text fs := by
  induction n with
  | zero => exact ⟨[], by simp [after, pendingFragments, ofText], (hasRead_ofText text _).covered⟩
  | succ n ih =>
    obtain ⟨fs, hperm, hcovered⟩ := ih
    obtain ⟨gs, hgs, hnext⟩ := hcovered.lex hperm
    refine ⟨gs, ?_, hnext⟩
    rw [List.range_succ, List.flatMap_append, List.flatMap_singleton]
    exact hgs

/-- Calls in a row, with `lexer n` for the lexer after `n` of them. After the end of the text
the same end is delivered, without anything before it. After a fault of the automaton the same
error is raised. In both cases the metrics stay as they are. After a whole lexeme was refused
the lexer stands at its end, and the next token carries what came before the lexeme. There are
no other errors. Whatever the calls come to, the fragments that they delivered, left pending
or refused tile the text up to where the lexer stands. -/
theorem calls_in_a_row (text : String) (preferences : LexicalPreferences) (n : Nat) :
    let lexer := (ofText text preferences).after
    (∀ t, (lexer n).lex.result = .ok t → t.isEnd = true → ∀ k,
      (lexer (n + (k + 1))).lex.result = .ok { t with affiliations := [] } ∧
      (lexer (n + (k + 1))).metrics = (lexer (n + 1)).metrics) ∧
    (∀ fault, (lexer n).fault? = some fault →
      ∃ e, (lexer n).lex.result = .error e ∧ e.kind = .ofLexFault fault ∧ ∀ k,
        (lexer (n + (k + 1))).lex.result = .error e ∧
        (lexer (n + (k + 1))).metrics = (lexer (n + 1)).metrics) ∧
    (∀ f, (lexer n).refused? = some f →
      (∃ e, (lexer n).lex.result = .error e) ∧
      (lexer (n + 1)).position = f.span.stop ∧
      String.ofList (lexer n).skip.rest = f.text ++ String.ofList (lexer (n + 1)).rest ∧
      ∀ k t, (∀ j < k, ∃ e, (lexer (n + (1 + j))).lex.result = .error e) →
        (lexer (n + (1 + k))).lex.result = .ok t →
        (lexer n).skip.pending.toList <+: t.affiliations) ∧
    (∀ e, (lexer n).lex.result = .error e →
      (∃ fault, (lexer n).fault? = some fault) ∨ ∃ f, (lexer n).refused? = some f) ∧
    ∃ fs, fs.Perm ((List.range n).flatMap (fun k => (lexer k).settled) ++
        (lexer n).pendingFragments) ∧
      (fs.Pairwise fun f g => f.span.start.offset ≤ g.span.start.offset) ∧
      Tiles text 0 fs (lexer n).position.offset ∧
      text = joined fs ++ String.ofList (lexer n).rest := by
  intro lexer
  have hlater (k : Nat) : lexer (n + k) = (lexer n).after k := after_add _ n k
  refine ⟨?_, ?_, ?_, ?_, ?_⟩
  · intro t h hend k
    obtain ⟨hafter, hresult⟩ := after_of_isEnd h hend k
    rw [hlater]
    refine ⟨hresult, ?_⟩
    rw [hafter]
    rfl
  · intro fault h
    obtain ⟨hlexer, e, herror, hkind⟩ := lex_of_fault? h
    refine ⟨e, herror, hkind, ?_⟩
    intro k
    rw [hlater, after_of_fault? h, ← (lexer n).skips_skip.lex_eq]
    exact ⟨herror, congrArg metrics hlexer.symm⟩
  · intro f h
    obtain ⟨herror, chars, rest, hchars, rfl, hlexer⟩ := lex_of_refused? h
    have hnext : lexer (n + 1) = (lexer n).skip.pass chars rest := hlexer
    refine ⟨herror, by rw [hnext]; rfl, ?_, ?_⟩
    · rw [hnext, hchars, String.ofList_append]
      rfl
    · intro k t herrors ht
      have hfirst (j : Nat) : lexer (n + (1 + j)) = (lexer (n + 1)).after j := by
        rw [← Nat.add_assoc]
        exact after_add _ (n + 1) j
      obtain ⟨e, herror⟩ := herror
      have hpending : (lexer (n + 1)).pending = (lexer n).skip.pending := pending_of_error herror
      rw [← hpending]
      rw [hfirst] at ht
      refine pending_isPrefix_of_first ht fun j hj => ?_
      rw [← hfirst]
      exact herrors j hj
  · intro e h
    exact fault?_or_refused? h
  · obtain ⟨fs, hperm, hcovered⟩ := hasCovered_after text preferences n
    exact ⟨fs, hperm, hcovered.tiles.sorted, hcovered.tiles, hcovered.text_eq⟩

/-- The end of a text after a token, a character that no lexeme starts with, and a number that
is refused between a comment and a token. -/
theorem calls_in_a_row_samples :
    (∃ t, ((ofText "x " {}).after 1).lex.result = .ok t ∧ t.affiliations.length = 1 ∧
      ∀ k, ((ofText "x " {}).after (1 + (k + 1))).lex.result =
        .ok { t with affiliations := [] }) ∧
    (∃ e, e.kind = .invalidCharacter ∧
      ∀ k, ((ofText "x #" {}).after (1 + (k + 1))).lex.result = .error e) ∧
    ((ofText "/**/09 x" {}).after 1).position = ⟨6, 1, 7⟩ ∧
    (∃ t, ((ofText "/**/09 x" {}).after 1).lex.result = .ok t ∧
      ((ofText "/**/09 x" {}).after 0).skip.pending.toList <+: t.affiliations) ∧
    ∃ fs, fs.Perm ((List.range 3).flatMap (fun k => ((ofText "/**/09 x" {}).after k).settled) ++
        ((ofText "/**/09 x" {}).after 3).pendingFragments) ∧
      Tiles "/**/09 x" 0 fs 8 := by
  have hend : (((ofText "x " {}).after 1).lex.result.toOption.map fun t =>
      (t.isEnd, t.affiliations.length)) = some (true, 1) := by decide +kernel
  have hfault : ((ofText "x #" {}).after 1).fault? = some .invalidCharacter := by decide +kernel
  have hrefused : (((ofText "/**/09 x" {}).after 0).refused?.map fun f => f.span.stop) =
      some ⟨6, 1, 7⟩ := by decide +kernel
  have hnext : ((ofText "/**/09 x" {}).after 1).lex.result.isOk = true := by decide +kernel
  have hoffset : ((ofText "/**/09 x" {}).after 3).position.offset = 8 := by decide +kernel
  refine ⟨?_, ?_, ?_⟩
  · cases ht : ((ofText "x " {}).after 1).lex.result with
    | error e =>
      rw [ht] at hend
      cases hend
    | ok t =>
      rw [ht] at hend
      obtain ⟨hisEnd, hlength⟩ : t.isEnd = true ∧ t.affiliations.length = 1 := by
        simpa [Except.toOption] using hend
      refine ⟨t, rfl, hlength, ?_⟩
      intro k
      exact ((calls_in_a_row "x " {} 1).1 t ht hisEnd k).1
  · obtain ⟨e, -, hkind, hlater⟩ := (calls_in_a_row "x #" {} 1).2.1 _ hfault
    exact ⟨e, hkind, fun k => (hlater k).1⟩
  · obtain ⟨f, hf, hstop⟩ := Option.map_eq_some_iff.mp hrefused
    obtain ⟨-, hposition, -, hcarried⟩ := (calls_in_a_row "/**/09 x" {} 0).2.2.1 f hf
    obtain ⟨fs, hperm, -, htiles, -⟩ := (calls_in_a_row "/**/09 x" {} 3).2.2.2.2
    refine ⟨hposition.trans hstop, ?_, fs, hperm, by rwa [hoffset] at htiles⟩
    cases ht : ((ofText "/**/09 x" {}).after 1).lex.result with
    | error e =>
      rw [ht] at hnext
      cases hnext
    | ok t => exact ⟨t, rfl, hcarried 0 t (by simp) ht⟩

end Lexer

end JavaSyntax
