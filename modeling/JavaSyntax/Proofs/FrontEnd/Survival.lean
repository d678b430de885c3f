import JavaSyntax.Proofs.FrontEnd.Layout
import JavaSyntax.Proofs.FrontEnd.Rules
import JavaSyntax.Proofs.Tree.Contacts

/-!
# Which texts survive printing

A tree is printed as its words, with white space where words must be kept apart. If these are
the words of the text that it was parsed from, the printed text differs from that one in its
layout only, and is parsed to the same tree again.

There are two ways in which this fails. Some words leave no trace in the tree, and are missing
then: commas at the end of a list, say, which do no harm, but also the guard of a lone `default`.
And a member of a number is printed without a gap before the dot, which the number goes on with.
-/

namespace JavaSyntax

namespace FrontEnd

variable {text : String} {mode : ParseMode} {n : Node mode.form}

/-- That a text is parsed to a tree of some sort can be computed. -/
theorem exists_parse_of_any (text : String) (mode : ParseMode) {P : Node mode.form → Prop}
    [DecidablePred P] (h : ((parse text mode).evaluate.toOption.any fun n => decide (P n)) = true) :
    ∃ n, (parse text mode).evaluate = .ok n ∧ P n := by
  cases hparse : (parse text mode).evaluate with
  | error e =>
    rw [hparse] at h
    cases h
  | ok n =>
    rw [hparse] at h
    exact ⟨n, rfl, of_decide_eq_true h⟩

/-- In what a parsed tree is printed as, words touch only where they may. -/
theorem sewn_of_parse (h : (parse text mode).evaluate = .ok n) :
    ((Form.node mode.form).unroll n.script).Sewn := by
  have hkept : Part.AllKept n.parts := Tree.forall_mem_parts_node (plain_of_parse h).kept
  cases mode <;> exact (Tree.seamed_script n (Tree.poised_of_isBare rfl) hkept).sewn

/-- If the words of a tree are those of the text that it was parsed from, and no number in it
has a dot behind it, the canonical source is split into the same words. -/
theorem tokens_canonical {ts : List Token} (h : (parse text mode).evaluate = .ok n)
    (hts : (tokenize text {}).toExcept = .ok ts) (hspelt : n.setting.SpeltBy ts)
    (hnumbers : n.setting.NumbersEnd) :
    ∃ us, (tokenize n.canonical {}).toExcept = .ok us ∧ us.map Token.word = ts.map Token.word ∧
      ∀ i, JoinedAt us i ↔ JoinedAt ts i := by
  have hwords := isWord_of_tokenize hts hspelt.words_eq
  have hspaced := n.spaced_canonical fun w hw => (hwords w hw).exists_getLast?
  obtain ⟨us, hus, hsame, hjoined⟩ := tokenize_of_spaced hts hspelt.words_eq hspaced
    (Tree.keepsApart_setting (sewn_of_parse h) hwords hnumbers)
  exact ⟨us, hus, hsame, fun i => (hjoined i).trans (hspelt.joined_iff i).symm⟩

end FrontEnd

end JavaSyntax
