import JavaSyntax.Proofs.Tree.Regular
import JavaSyntax.Tree.Printer

/-!
# Printing and indentation

What printing does to a writer is a sequence of strokes: a text is written, a line is fed, or the
lines that follow are indented by a step more or less. A tree is printed by the same strokes
whatever the writer holds. How they are laid out depends on the depth at which they start, and
only the lines that they start themselves are indented, so a literal that goes on over several
lines keeps them as they are. What strokes are put together by is found once for each way to
print a list, and then for all trees by induction.
-/

namespace JavaSyntax

/-! ### Strokes -/

/-- One thing that is done to a writer. -/
inductive Stroke where
  | text (s : String) | lineFeed | deeper | shallower
deriving DecidableEq

namespace Stroke

def apply : Stroke → Writer → Writer
  | text s => Writer.write s
  | lineFeed => Writer.newline
  | deeper => Writer.indent
  | shallower => Writer.dedent

/-- Does some strokes, one after the other. -/
def replay (strokes : List Stroke) : Print :=
  fun w => strokes.foldl (fun w stroke => stroke.apply w) w

/-- Strokes are done one after the other, the first one first. -/
theorem replay_cons (stroke : Stroke) (rest : List Stroke) (w : Writer) :
    replay (stroke :: rest) w = replay rest (stroke.apply w) := rfl

/-- Doing strokes and then more is doing all of them. -/
theorem replay_append (strokes more : List Stroke) :
    replay (strokes ++ more) = fun w => replay more (replay strokes w) := by
  funext w
  rw [replay, List.foldl_append]
  rfl

/-- How deep strokes end, and whether on a line on which nothing stands yet, unless they come
out of a depth that they have not gone into. -/
def after : List Stroke → Nat → Bool → Option (Nat × Bool)
  | [], depth, fresh => some (depth, fresh)
  | text s :: rest, depth, fresh => after rest depth (fresh && s.isEmpty)
  | lineFeed :: rest, depth, _ => after rest depth true
  | deeper :: rest, depth, fresh => after rest (depth + 1) fresh
  | shallower :: _, 0, _ => none
  | shallower :: rest, depth + 1, fresh => after rest depth fresh

/-- The place behind strokes and more is that behind the latter, from where the former end. -/
theorem after_append (strokes more : List Stroke) (depth : Nat) (fresh : Bool) :
    after (strokes ++ more) depth fresh =
      (after strokes depth fresh).bind fun place => after more place.1 place.2 := by
  induction strokes generalizing depth fresh with
  | nil => rfl
  | cons stroke rest ih =>
    cases stroke with
    | shallower =>
      cases depth with
      | zero => rfl
      | succ depth => exact ih depth fresh
    | _ => exact ih _ _

/-! ### Lines -/

/-- A line that something stands on already, from there on, and the lines below it. -/
structure Lines where
  first : String
  below : List String

/-- The lines that strokes write. Only a line feed starts a line. -/
def lines : List Stroke → Nat → Bool → Lines
  | [], _, _ => ⟨"", []⟩
  | text s :: rest, depth, fresh =>
    let ls := lines rest depth (fresh && s.isEmpty)
    if s.isEmpty then ls
    else ⟨(if fresh then Writer.margin depth else "") ++ s ++ ls.first, ls.below⟩
  | lineFeed :: rest, depth, _ =>
    let ls := lines rest depth true
    ⟨"", ls.first :: ls.below⟩
  | deeper :: rest, depth, fresh => lines rest (depth + 1) fresh
  | shallower :: rest, depth, fresh => lines rest (depth - 1) fresh

/-- The text of lines. -/
def Lines.text (ls : Lines) : String := ls.first ++ String.join (ls.below.map ("\n" ++ ·))

/-- A line with some blanks in front of it. An empty line stays empty. -/
def indented (blanks : Nat) (line : String) : String :=
  if line.isEmpty then line else String.ofList (List.replicate blanks ' ') ++ line

/-- Lines of which those below the first one are indented. -/
def Lines.indentedBelow (blanks : Nat) (ls : Lines) : Lines :=
  ⟨ls.first, ls.below.map (indented blanks)⟩

/-- An empty line is not indented. -/
theorem indented_empty (blanks : Nat) : indented blanks "" = "" := rfl

/-- A line that is not empty has blanks put in front. -/
theorem indented_of_ne {line : String} (h : line ≠ "") (blanks : Nat) :
    indented blanks line = String.ofList (List.replicate blanks ' ') ++ line := by
  rw [indented, if_neg (by simpa using h)]

/-- The margin of a greater depth has the blanks of the other depth in front. -/
theorem margin_add (more depth : Nat) :
    Writer.margin (more + depth) =
      String.ofList (List.replicate (4 * more) ' ') ++ Writer.margin depth := by
  induction more with
  | zero => simp
  | succ more ih =>
    have hstep : more + 1 + depth = more + depth + 1 := by omega
    have hblanks : List.replicate (4 * (more + 1)) ' ' =
        [' ', ' ', ' ', ' '] ++ List.replicate (4 * more) ' ' := rfl
    rw [hstep, Writer.margin, List.replicate_succ, String.join_cons, ← Writer.margin, ih, hblanks,
      String.ofList_append, String.append_assoc]
    rfl

/-- What strokes do to a writer is to write their lines. -/
theorem replay_eq {strokes : List Stroke} {depth depth' : Nat} {fresh fresh' : Bool}
    (h : after strokes depth fresh = some (depth', fresh')) (output : String) :
    replay strokes ⟨output, depth, fresh⟩ =
      ⟨output ++ (lines strokes depth fresh).text, depth', fresh'⟩ := by
  induction strokes generalizing output depth fresh with
  | nil =>
    cases h
    simp [replay, lines, Lines.text]
  | cons stroke rest ih =>
    rw [replay_cons]
    cases stroke with
    | text s =>
      rw [after] at h
      rw [apply, Writer.write, lines]
      split
      · rename_i hs
        rw [hs, Bool.and_true] at h ⊢
        exact ih h output
      · rename_i hs
        rw [Bool.eq_false_iff.mpr hs, Bool.and_false] at h ⊢
        cases fresh with
        | true =>
          have hrest := ih h (output ++ Writer.margin depth ++ s)
          simpa [Lines.text, String.append_assoc] using hrest
        | false => simpa [Lines.text, String.append_assoc] using ih h (output ++ s)
    | lineFeed =>
      have hrest := ih h (output.push '\n')
      simpa [apply, Writer.newline, lines, Lines.text, String.push_eq_append, String.append_assoc]
        using hrest
    | deeper => exact ih h output
    | shallower =>
      cases depth with
      | zero => cases h
      | succ depth => exact ih h output

/-- Started deeper, strokes write the same lines, but every line that they start themselves
and write something on is indented by as much more. -/
theorem lines_add {strokes : List Stroke} {depth : Nat} {fresh : Bool}
    (h : (after strokes depth fresh).isSome) (more : Nat) :
    lines strokes (more + depth) fresh =
      ⟨if fresh then indented (4 * more) (lines strokes depth fresh).first
        else (lines strokes depth fresh).first,
        (lines strokes depth fresh).below.map (indented (4 * more))⟩ := by
  induction strokes generalizing depth fresh with
  | nil => cases fresh <;> rfl
  | cons stroke rest ih =>
    cases stroke with
    | text s =>
      rw [after] at h
      have hrest := ih h
      rw [lines, lines, hrest]
      by_cases hs : s.isEmpty = true
      · simp [hs]
      · have hne : Writer.margin depth ++ (s ++ (lines rest depth false).first) ≠ "" := by
          simpa using fun _ hempty => absurd hempty (by simpa using hs)
        cases fresh <;> simp [hs, indented_of_ne hne, margin_add, String.append_assoc]
    | lineFeed =>
      have hrest := @ih depth true h
      simp [lines, hrest, indented_empty]
    | deeper => exact @ih (depth + 1) fresh h
    | shallower =>
      cases depth with
      | zero => cases h
      | succ depth => exact @ih depth fresh h

end Stroke

/-! ### Nodes that are printed -/

namespace Tree

variable {f : Form}

/-- Whether a tree holds nodes that are not printed: the guard of a `default`, or annotations
of dimensions that are not there. -/
def leavesOut : {f : Form} → Tree f → Bool
  | _, .switchLabel labels guard => (switchLabel labels guard).isDefault && guard.isPresent
  | _, .arrayCreation _ dimensions extraDimensions annotations _ =>
    dimensions.toList.length + extraDimensions < annotations.toList.length
  | _, _ => false

/-- The outermost nodes of a tree, if they are all printed. -/
def shown : {f : Form} → Tree f → List Part
  | _, .cons head tail => head.shown ++ tail.shown
  | _, .present tree => tree.shown
  | _, t => if t.leavesOut then [] else t.parts

end Tree

namespace Part

variable {p q r : Part}

/-- The way a node is printed. -/
def print (p : Part) : Print := (Form.node p.form).flatten p.node.print

/-- A node is printed as part of another one, at any depth. -/
inductive ShownIn : Part → Part → Prop
  | refl (p : Part) : ShownIn p p
  | child {p q r : Part} (hq : q ∈ p.node.inner.shown) (hr : ShownIn r q) : ShownIn r p

/-- Strokes print a node. A literal is printed by one stroke. -/
structure Drawn (p : Part) (strokes : List Stroke) : Prop where
  replay_eq : Stroke.replay strokes = p.print
  literal_eq : ∀ l, p.node.inner.literal? = some l → strokes = [.text l.text]

/-- Everything in a node is printed by some of the strokes, which stand together. -/
def DrawnIn (p : Part) (strokes : List Stroke) : Prop :=
  ∀ q, ShownIn q p → ∃ own, own <:+: strokes ∧ q.Drawn own

/-- What is drawn by some strokes is drawn by more of them. -/
theorem DrawnIn.mono {strokes more : List Stroke} (h : p.DrawnIn strokes)
    (hwithin : strokes <:+: more) : p.DrawnIn more := by
  intro q hq
  obtain ⟨own, hown, hdrawn⟩ := h q hq
  exact ⟨own, hown.trans hwithin, hdrawn⟩

end Part

/-! ### Sketches -/

/-- A print does some strokes with a property, by which it prints nodes. -/
def Sketched (P : List Stroke → Prop) (p : Print) (inside : List Part) : Prop :=
  ∃ strokes, Stroke.replay strokes = p ∧ P strokes ∧ ∀ q ∈ inside, q.DrawnIn strokes

namespace Sketched

variable {P Q R : List Stroke → Prop} {p q : Print} {a b : List Part}

/-- One stroke prints no node. -/
theorem stroke (s : Stroke) (h : P [s]) : Sketched P s.apply [] := ⟨[s], rfl, h, nofun⟩

/-- Doing nothing prints no node. -/
theorem nothing (h : P []) : Sketched P id [] := ⟨[], rfl, h, nofun⟩

/-- One print after the other does the strokes of both. -/
theorem seq (hp : Sketched P p a) (hq : Sketched Q q b)
    (h : ∀ strokes more, P strokes → Q more → R (strokes ++ more)) :
    Sketched R (fun w => q (p w)) (a ++ b) := by
  obtain ⟨strokes, rfl, hP, ha⟩ := hp
  obtain ⟨more, rfl, hQ, hb⟩ := hq
  refine ⟨strokes ++ more, Stroke.replay_append strokes more, h strokes more hP hQ, ?_⟩
  intro r hr
  rcases List.mem_append.mp hr with hr | hr
  · exact (ha r hr).mono (List.prefix_append strokes more).isInfix
  · exact (hb r hr).mono (List.suffix_append strokes more).isInfix

/-- Fewer properties of the strokes may be claimed, and fewer nodes. -/
theorem weaken (hp : Sketched P p a) (hPQ : ∀ strokes, P strokes → Q strokes) (hab : b ⊆ a) :
    Sketched Q p b := by
  obtain ⟨strokes, heq, hP, ha⟩ := hp
  exact ⟨strokes, heq, hPQ strokes hP, fun q hq => ha q (hab hq)⟩

end Sketched

/-- Strokes that end as deep as they start, and go on with a line that something stands on. If
they write something for certain, this holds even if they start on a fresh line. -/
def Settles (blank : Bool) (strokes : List Stroke) : Prop :=
  ∀ depth fresh, ∃ fresh', Stroke.after strokes depth fresh = some (depth, fresh') ∧
    (fresh' = true → fresh = true ∧ blank = true)

/-- Strokes that settle may be put in sequence, and write something if either do. -/
theorem Settles.append {blank blank' : Bool} {strokes more : List Stroke}
    (h : Settles blank strokes) (h' : Settles blank' more) :
    Settles (blank && blank') (strokes ++ more) := by
  intro depth fresh
  obtain ⟨fresh₁, heq₁, h₁⟩ := h depth fresh
  obtain ⟨fresh₂, heq₂, h₂⟩ := h' depth fresh₁
  refine ⟨fresh₂, ?_, ?_⟩
  · rw [Stroke.after_append, heq₁]
    exact heq₂
  · intro hfresh
    obtain ⟨hfresh₁, rfl⟩ := h₂ hfresh
    obtain ⟨hfresh, rfl⟩ := h₁ hfresh₁
    exact ⟨hfresh, rfl⟩

/-- Strokes that write for certain may be said to write perhaps. -/
theorem Settles.mono {blank blank' : Bool} {strokes : List Stroke} (h : Settles blank strokes)
    (hle : blank = true → blank' = true) : Settles blank' strokes := by
  intro depth fresh
  obtain ⟨fresh', heq, himp⟩ := h depth fresh
  exact ⟨fresh', heq, fun hfresh => ⟨(himp hfresh).1, hle (himp hfresh).2⟩⟩

/-- Strokes that end as deep as they start. -/
def Level (strokes : List Stroke) : Prop :=
  ∀ depth fresh, ∃ fresh', Stroke.after strokes depth fresh = some (depth, fresh')

/-- Strokes that stay level may be put in sequence. -/
theorem Level.append {strokes more : List Stroke} (h : Level strokes) (h' : Level more) :
    Level (strokes ++ more) := by
  intro depth fresh
  obtain ⟨fresh₁, heq₁⟩ := h depth fresh
  obtain ⟨fresh₂, heq₂⟩ := h' depth fresh₁
  refine ⟨fresh₂, ?_⟩
  rw [Stroke.after_append, heq₁]
  exact heq₂

/-- Strokes that settle stay level. -/
theorem Settles.level {blank : Bool} {strokes : List Stroke} (h : Settles blank strokes) :
    Level strokes := by
  intro depth fresh
  obtain ⟨fresh', heq, -⟩ := h depth fresh
  exact ⟨fresh', heq⟩

/-- Strokes that start a line that is indented one step more. -/
def Opens (strokes : List Stroke) : Prop :=
  ∀ depth fresh, Stroke.after strokes depth fresh = some (depth + 1, true)

/-- Strokes that write something after they have gone back one step. -/
def Closes (strokes : List Stroke) : Prop :=
  ∀ depth fresh, Stroke.after strokes (depth + 1) fresh = some (depth, false)

/-- Strokes that stay level may stand before those that close. -/
theorem Closes.after_level {strokes more : List Stroke} (h : Level strokes) (h' : Closes more) :
    Closes (strokes ++ more) := by
  intro depth fresh
  obtain ⟨fresh', heq⟩ := h (depth + 1) fresh
  rw [Stroke.after_append, heq]
  exact h' depth fresh'

/-- Strokes that open, and then strokes that close, settle. -/
theorem Settles.of_braces {strokes more : List Stroke} (h : Opens strokes) (h' : Closes more) :
    Settles false (strokes ++ more) := by
  intro depth fresh
  refine ⟨false, ?_, fun h => absurd h Bool.false_ne_true⟩
  rw [Stroke.after_append, h depth fresh]
  exact h' depth true

/-- A line feed may stand before what is sure to be written. -/
theorem Settles.of_lineFeed {more : List Stroke} (h : Settles false more) :
    Settles false ([.lineFeed] ++ more) := by
  intro depth fresh
  obtain ⟨fresh', heq, himp⟩ := h depth true
  exact ⟨fresh', heq, fun hfresh => absurd (himp hfresh).2 Bool.false_ne_true⟩

/-- Strokes that settle do so one step deeper. -/
theorem Settles.of_nested {strokes : List Stroke} (h : Settles true strokes) :
    Settles true ([.deeper] ++ (strokes ++ [.shallower])) := by
  intro depth fresh
  obtain ⟨fresh', heq, himp⟩ := h (depth + 1) fresh
  refine ⟨fresh', ?_, himp⟩
  change Stroke.after (strokes ++ [.shallower]) (depth + 1) fresh = _
  rw [Stroke.after_append, heq]
  rfl

/-- A print that settles, and the nodes that it prints. -/
class Draws (blank : outParam Bool) (p : Print) (inside : outParam (List Part)) : Prop where
  sketched : Sketched (Settles blank) p inside

/-- Things one after the other, each with nodes of its own. -/
class inductive Each {α : Type} (R : α → List Part → Prop) : List α → outParam (List Part) → Prop
  | nil : Each R [] []
  | cons {x : α} {xs : List α} {a b : List Part} (h : R x a) (hxs : Each R xs b) :
    Each R (x :: xs) (a ++ b)

/-- Something with its nodes, unless it is missing. -/
class inductive Perhaps {α : Type} (R : α → List Part → Prop) :
    Option α → outParam (List Part) → Prop
  | none : Perhaps R none []
  | some {x : α} {a : List Part} (h : R x a) : Perhaps R (some x) a

/-- No items hold no nodes. -/
theorem Each.eq_nil {α : Type} {R : α → List Part → Prop} {xs : List α} {a : List Part}
    (h : Each R xs a) (hempty : xs.isEmpty = true) : a = [] := by
  cases h with
  | nil => rfl
  | cons => cases hempty

/-- Items in sequence hold the nodes of the one list and of the other. -/
theorem Each.append {α : Type} {R : α → List Part → Prop} {xs ys : List α} {a b : List Part}
    (h : Each R xs a) (h' : Each R ys b) : Each R (xs ++ ys) (a ++ b) := by
  induction h with
  | nil => exact h'
  | cons hx _ ih =>
    rw [List.cons_append, List.append_assoc]
    exact .cons hx ih

/-- Items may be changed as long as they hold the same nodes. -/
theorem Each.map {α β : Type} {R : α → List Part → Prop} {S : β → List Part → Prop} {xs : List α}
    {a : List Part} {g : α → β} (h : Each R xs a) (hg : ∀ x b, R x b → S (g x) b) :
    Each S (xs.map g) a := by
  induction h with
  | nil => exact .nil
  | cons hx _ ih => exact .cons (hg _ _ hx) ih

/-- What may be missing is a list of one item or none. -/
theorem Perhaps.toList {α : Type} {R : α → List Part → Prop} {x : Option α} {a : List Part}
    (h : Perhaps R x a) : Each R x.toList a := by
  cases h with
  | none => exact .nil
  | some hx =>
    have hone : Each R [_] (_ ++ []) := .cons hx .nil
    rwa [List.append_nil] at hone

namespace Sketched

variable {P S : List Stroke → Prop} {p separator : Print} {ps : List Print} {a : List Part}
  {R : Print → List Part → Prop}

/-- Strokes with a property that is kept when they are put together. -/
theorem all (hnil : P []) (happend : ∀ strokes more, P strokes → P more → P (strokes ++ more))
    (h : Each (Sketched P) ps a) : Sketched P (Print.all ps) a := by
  induction h with
  | nil => exact .nothing hnil
  | cons hp _ ih => exact hp.seq ih happend

/-- Prints with something between them. -/
theorem separated (hseparator : Sketched S separator [])
    (hjoin : ∀ first between rest, P first → S between → P rest → P (first ++ between ++ rest))
    (h : Each (Sketched P) ps a) (hnil : ps = [] → P []) :
    Sketched P (Print.separated separator ps) a := by
  induction h with
  | nil => exact .nothing (hnil rfl)
  | @cons p ps b c hp hps ih =>
    cases ps with
    | nil =>
      cases hps
      rw [List.append_nil]
      exact hp
    | cons q qs =>
      have hfirst : Sketched (fun strokes => ∃ first between, P first ∧ S between ∧
          strokes = first ++ between) (fun w => separator (p w)) (b ++ []) :=
        hp.seq hseparator fun first between hf hb => ⟨first, between, hf, hb, rfl⟩
      rw [List.append_nil] at hfirst
      refine hfirst.seq (ih nofun) ?_
      rintro _ rest ⟨first, between, hf, hb, rfl⟩ hrest
      exact hjoin first between rest hf hb hrest

end Sketched

namespace Draws

variable {blank blank' : Bool} {p q : Print} {ps qs : List Print} {a b : List Part}

/-- Less may be claimed of what is drawn, and of fewer nodes. -/
theorem weaken (h : Draws blank p a) (hblank : blank = true → blank' = true) (hab : b ⊆ a) :
    Draws blank' p b :=
  ⟨h.sketched.weaken (fun _ hsettles => hsettles.mono hblank) hab⟩

/-- What is drawn by instances may be asked for less. -/
theorem relax [h : Draws blank p a] (hblank : blank = true → blank' = true) : Draws blank' p a :=
  h.weaken hblank (List.Subset.refl _)

/-- Doing nothing settles. -/
theorem settles_nil : Settles true [] := fun _ fresh => ⟨fresh, rfl, fun h => ⟨h, rfl⟩⟩

instance nothing : Draws true id [] := ⟨.nothing settles_nil⟩

instance text (s : String) : Draws s.isEmpty (Print.text s) [] where
  sketched := .stroke (.text s) fun _ fresh =>
    ⟨fresh && s.isEmpty, rfl, fun h => Bool.and_eq_true_iff.mp h⟩

instance all_nil : Draws true (Print.all []) [] := nothing

instance all_cons [hp : Draws blank p a] [hps : Draws blank' (Print.all ps) b] :
    Draws (blank && blank') (Print.all (p :: ps)) (a ++ b) :=
  ⟨hp.sketched.seq hps.sketched fun _ _ => .append⟩

/-- What writes something for certain settles also where nothing is asked of it. -/
instance each_true [h : Each (Draws false) ps a] : Each (Draws true) ps a := by
  have hmap := h.map (S := Draws true) (g := id) fun _ _ hp =>
    hp.weaken (fun h => absurd h Bool.false_ne_true) (List.Subset.refl _)
  rwa [List.map_id] at hmap

instance perhaps_true {x : Option Print} [h : Perhaps (Draws false) x a] :
    Perhaps (Draws true) x a := by
  cases h with
  | none => exact .none
  | some hp => exact .some (hp.weaken (fun h => absurd h Bool.false_ne_true) (List.Subset.refl _))

/-- Prints that settle, one after the other. -/
theorem sketched_each {g : Print → Print} (hps : Each (Draws true) ps a)
    (hg : ∀ p b, Draws true p b → Draws true (g p) b) :
    Sketched (Settles true) (Print.each g ps) a :=
  .all settles_nil (fun _ _ => .append) (hps.map fun p b hp => (hg p b hp).sketched)

instance all [h : Each (Draws true) ps a] : Draws true (Print.all ps) a := by
  have hall := sketched_each h fun _ _ hp => hp
  rw [Print.each, List.map_id'] at hall
  exact ⟨hall⟩

/-- Writing a text settles. -/
theorem sketched_text (s : String) : Sketched (Settles true) (Print.text s) [] :=
  ((text s).weaken (fun _ => rfl) (List.Subset.refl _)).sketched

/-- Feeding a line stays level. -/
theorem sketched_newline : Sketched Level Writer.newline [] :=
  .stroke .lineFeed fun _ _ => ⟨true, rfl⟩

/-- Between two parts that are sure to be written, there may be anything level. -/
theorem settles_between {first between rest : List Stroke} (hfirst : Settles false first)
    (hbetween : Level between) (hrest : Settles false rest) :
    Settles false (first ++ between ++ rest) := by
  intro depth fresh
  obtain ⟨fresh₁, heq₁, -⟩ := hfirst depth fresh
  obtain ⟨fresh₂, heq₂⟩ := hbetween depth fresh₁
  obtain ⟨fresh₃, heq₃, himp⟩ := hrest depth fresh₂
  refine ⟨fresh₃, ?_, fun h => absurd (himp h).2 Bool.false_ne_true⟩
  rw [Stroke.after_append, Stroke.after_append, heq₁, Option.bind_some, heq₂]
  exact heq₃

/-- Prints on lines of their own, of which each writes something. -/
theorem sketched_lines {separator : Print} (hseparator : Sketched Level separator [])
    (h : Each (Draws false) ps a) :
    Sketched (Settles ps.isEmpty) (Print.separated separator ps) a := by
  by_cases hne : ps = []
  · subst hne
    cases h
    exact .nothing settles_nil
  · rw [List.isEmpty_eq_false_iff.mpr hne]
    have hmap := h.map (g := id) fun _ _ hp => hp.sketched
    rw [List.map_id] at hmap
    exact .separated hseparator (fun _ _ _ => settles_between) hmap fun heq => absurd heq hne

instance join {separator : String} [h : Each (Draws true) ps a] :
    Draws true (Print.join separator ps) a where
  sketched := by
    have hmap := h.map (g := id) fun _ _ hp => hp.sketched
    rw [List.map_id] at hmap
    exact .separated (sketched_text separator) (fun _ _ _ h₁ h₂ h₃ => (h₁.append h₂).append h₃)
      hmap fun _ => settles_nil

instance list {opening separator closing : String} [h : Each (Draws true) ps a] :
    Draws true (Print.list opening separator closing ps) a := by
  unfold Print.list
  split
  · rw [h.eq_nil ‹_›]
    infer_instance
  · exact weaken inferInstance (fun _ => rfl) (by simp)

instance angles [Each (Draws true) ps a] : Draws true (Print.angles ps) a := list

instance clause {keyword : String} [Each (Draws true) ps a] :
    Draws true (Print.clause keyword ps) a := list

instance parens [Each (Draws true) ps a] : Draws false (Print.parens ps) a := by
  unfold Print.parens
  exact weaken inferInstance (by decide) (by simp)

instance prefixes [h : Each (Draws true) ps a] : Draws true (Print.prefixes ps) a :=
  ⟨sketched_each h fun _ _ _ => weaken inferInstance (fun _ => rfl) (by simp)⟩

instance leading {s : String} [h : Each (Draws true) ps a] :
    Draws true (Print.each (fun p => .all [.text s, p]) ps) a :=
  ⟨sketched_each h fun _ _ _ => weaken inferInstance (fun _ => rfl) (by simp)⟩

instance textIf {condition : Bool} {s : String} : Draws true (Print.textIf condition s) [] := by
  unfold Print.textIf
  split
  · exact weaken inferInstance (fun _ => rfl) (by simp)
  · infer_instance

instance texts {α : Type} {g : α → String} {xs : List α} :
    Draws true (Print.all (xs.map fun x => .text (g x))) [] := by
  induction xs with
  | nil => exact all_nil
  | cons x xs ih =>
    rw [List.map_cons]
    exact weaken inferInstance (fun _ => rfl) (by simp)

instance times {n : Nat} {s : String} : Draws true (Print.times n (.text s)) [] := by
  have htexts : Draws true (Print.all ((List.replicate n ()).map fun _ => .text s)) [] := texts
  rwa [List.map_replicate] at htexts

/-! #### Parts that may be missing -/

variable {α : Type} {R : α → List Part → Prop} {x : Option α}

/-- A part that may be missing draws its nodes if it is there. -/
theorem optional {g : α → Print} (h : Perhaps R x a) (hg : ∀ y b, R y b → Draws true (g y) b) :
    Draws true (Print.optional g x) a := by
  cases h with
  | none => exact nothing
  | some hy => exact hg _ _ hy

instance optionalLast {s : String} {x : Option Print} [h : Perhaps (Draws true) x a] :
    Draws true (Print.optional (fun p => .all [.text s, p]) x) a :=
  optional h fun _ _ _ => weaken inferInstance (fun _ => rfl) (by simp)

instance optionalText {x : Option String} {s : String} :
    Draws true (Print.optional (fun name => .all [.text s, .text name]) x) [] := by
  cases x with
  | none => exact nothing
  | some name =>
    have hname : Draws (name.isEmpty && true) (Print.all [.text name]) ([] ++ []) := all_cons
    exact weaken (@all_cons _ _ _ _ _ _ (text s) hname) (fun _ => rfl) (by simp)

instance optionalId {x : Option Print} [h : Perhaps (Draws true) x a] :
    Draws true (Print.optional id x) a :=
  optional h fun _ _ hp => hp

instance qualified {x : Option Print} [h : Perhaps (Draws true) x a] :
    Draws true (Tree.qualified x) a :=
  optional h fun _ _ _ => weaken inferInstance (fun _ => rfl) (by simp)

instance optionalParens {x : Option (List Print)} [h : Perhaps (Each (Draws true)) x a] :
    Draws true (Print.optional Print.parens x) a :=
  optional h fun _ _ _ => weaken inferInstance (fun _ => rfl) (by simp)

instance optionalArguments {x : Option (List Print)} [h : Perhaps (Each (Draws true)) x a] :
    Draws true (Print.optional
      (fun ps => if ps.isEmpty then .text "<>" else Print.angles ps) x) a := by
  refine optional h fun ps b hps => ?_
  split
  · rw [hps.eq_nil ‹_›]
    exact weaken inferInstance (fun _ => rfl) (by simp)
  · exact angles

/-! #### Blocks of indented lines -/

/-- Between braces, whatever ends as deep as it starts is indented. -/
theorem sketched_braces {p : Print} (h : Sketched Level p a) :
    Sketched (Settles false) (.all [Writer.openBrace, p, Writer.closeBrace]) a := by
  have hopen : Sketched Opens Writer.openBrace [] :=
    ⟨[.text "\x7b", .deeper, .lineFeed], rfl, fun _ _ => rfl, nofun⟩
  have hclose : Sketched Closes Writer.closeBrace [] := by
    refine ⟨[.shallower, .text "\x7d"], rfl, fun depth fresh => ?_, nofun⟩
    cases fresh <;> rfl
  have hinner := h.seq hclose fun _ _ => Closes.after_level
  have hall := hopen.seq hinner fun _ _ => Settles.of_braces
  exact hall.weaken (fun _ => id) (by simp)

/-- Each of some prints on a line that ends after it. -/
theorem sketched_ended [h : Each (Draws true) ps a] :
    Sketched Level (.each (fun p => .all [p, Writer.newline]) ps) a := by
  refine .all (fun _ fresh => ⟨fresh, rfl⟩) (fun _ _ => Level.append) (h.map fun p b hp => ?_)
  have hline := hp.sketched.seq sketched_newline fun _ _ hs => hs.level.append
  exact hline.weaken (fun _ => id) (by simp)

instance bracedLines [h : Each (Draws true) ps a] : Draws false (Print.bracedLines ps) a := by
  unfold Print.bracedLines
  split
  · rw [h.eq_nil ‹_›]
    exact weaken inferInstance (by decide) (List.Subset.refl _)
  · exact ⟨sketched_braces sketched_ended⟩

instance optionalBody {x : Option (List Print)} [h : Perhaps (Each (Draws true)) x a] :
    Draws true (Print.optional (fun ps => .all [.text " ", .bracedLines ps]) x) a :=
  optional h fun _ _ _ => weaken inferInstance (fun _ => rfl) (by simp)

/-- The semicolon after the constants of an enum is on their line. -/
instance enumBody [h : Each (Draws true) ps a] [h' : Each (Draws true) qs b] :
    Draws false (Tree.enumBody ps qs) (a ++ b) := by
  unfold Tree.enumBody
  split
  · rename_i hempty
    obtain ⟨hps, hqs⟩ := Bool.and_eq_true_iff.mp hempty
    rw [h.eq_nil hps, h'.eq_nil hqs]
    exact weaken inferInstance (by decide) (List.Subset.refl _)
  · have hcomma : Sketched Level (.all [.text ",", Writer.newline]) [] :=
      (sketched_text ",").seq sketched_newline fun _ _ hs => hs.level.append
    have hconstants : Sketched Level
        (.separated (.all [.text ",", Writer.newline]) ps) a := by
      have hmap := h.map (g := id) fun _ _ hp => hp.sketched.weaken (fun _ hs => hs.level)
        (List.Subset.refl _)
      rw [List.map_id] at hmap
      exact .separated hcomma (fun _ _ _ h₁ h₂ h₃ => (h₁.append h₂).append h₃) hmap
        fun _ _ fresh => ⟨fresh, rfl⟩
    have hrest : Sketched Level (if qs.isEmpty then Writer.newline else
        .all [.text ";", Writer.newline, .each (fun p => .all [p, Writer.newline]) qs]) b := by
      split
      · rw [h'.eq_nil ‹_›]
        exact sketched_newline
      · have hended : Sketched Level (.each (fun p => .all [p, Writer.newline]) qs) b :=
          sketched_ended
        have hlines := sketched_newline.seq hended fun _ _ => Level.append
        have hall := (sketched_text ";").seq hlines fun _ _ hs => hs.level.append
        exact hall.weaken (fun _ => id) (by simp)
    have hbody := hconstants.seq hrest fun _ _ => Level.append
    exact ⟨sketched_braces hbody⟩

/-- The statements of a group are indented without braces. -/
instance caseGroup [h : Each (Draws true) ps a] [h' : Each (Draws false) qs b] :
    Draws true (Tree.caseGroup ps qs) (a ++ b) := by
  have hlabel : Each (Draws false) (ps.map fun p => .all [p, .text ":"]) a :=
    h.map fun p c hp => weaken inferInstance (by decide) (by simp)
  have hlabels := (sketched_lines sketched_newline hlabel).weaken
    (fun _ hs => (hs.mono fun _ => rfl : Settles true _)) (List.Subset.refl _)
  have hline : Each (Sketched (Settles true)) (qs.map fun p => .all [Writer.newline, p]) b := by
    refine h'.map fun p c hp => ?_
    have hfeed : Sketched (· = [.lineFeed]) Writer.newline [] := .stroke .lineFeed rfl
    refine hfeed.seq hp.sketched ?_
    rintro _ more rfl hmore
    exact hmore.of_lineFeed.mono fun h => absurd h Bool.false_ne_true
  have hlines := Sketched.all settles_nil (fun _ _ => Settles.append) hline
  have hback := hlines.seq (.stroke .shallower rfl : Sketched (· = [.shallower]) Writer.dedent [])
    (R := fun strokes => Settles true ([.deeper] ++ strokes)) (by
      rintro strokes _ hs rfl
      exact hs.of_nested)
  have hnested := (Sketched.stroke .deeper rfl :
    Sketched (· = [.deeper]) Writer.indent []).seq hback (R := Settles true) (by
      rintro _ more rfl hmore
      exact hmore)
  have hall := hlabels.seq hnested fun _ _ => Settles.append
  exact ⟨hall.weaken (fun _ => id) (by simp)⟩

instance sections {x y : Option Print} {c d : List Part} [hx : Perhaps (Draws false) x a]
    [hps : Each (Draws false) ps b] [hqs : Each (Draws false) qs c]
    [hy : Perhaps (Draws false) y d] :
    Draws true (Tree.sections x ps qs y) (a ++ b ++ c ++ d) := by
  have himported : Each (Draws false)
      (if ps.isEmpty then [] else [.separated Writer.newline ps]) b := by
    split
    · rw [hps.eq_nil ‹_›]
      exact .nil
    · rename_i hne
      have hlines := sketched_lines sketched_newline hps
      rw [Bool.eq_false_iff.mpr hne] at hlines
      have hone : Each (Draws false) [_] (b ++ []) := .cons ⟨hlines⟩ .nil
      rwa [List.append_nil] at hone
  have hfeeds : Sketched Level (.all [Writer.newline, Writer.newline]) [] :=
    sketched_newline.seq sketched_newline fun _ _ => Level.append
  have hall := sketched_lines hfeeds (((hx.toList.append himported).append hqs).append hy.toList)
  exact weaken ⟨hall⟩ (fun _ => rfl) (List.Subset.refl _)

/-! #### Parts of trees -/

instance operation {operator : UnaryOperator} {gap : String} [Draws true p a] :
    Draws true (Tree.operation operator gap p) a := by
  unfold Tree.operation
  split <;> exact weaken inferInstance (fun _ => rfl) (by simp)

instance implicitNames {names : List String} {inParens : Bool} :
    Draws true (Tree.implicitNames names inParens) [] := by
  unfold Tree.implicitNames
  split <;> exact weaken inferInstance (fun _ => rfl) (by simp)

instance methodEnd {x : Option Print} [h : Perhaps (Draws true) x a] :
    Draws true (Tree.methodEnd x) a := by
  cases h with
  | none =>
    rw [Tree.methodEnd]
    exact weaken inferInstance (fun _ => rfl) (by simp)
  | some hp =>
    rw [Tree.methodEnd]
    exact weaken inferInstance (fun _ => rfl) (by simp)

instance leadingTypeParameters [h : Each (Draws true) ps a] :
    Draws true (Tree.leadingTypeParameters ps) a := by
  unfold Tree.leadingTypeParameters
  split
  · rw [h.eq_nil ‹_›]
    infer_instance
  · exact weaken inferInstance (fun _ => rfl) (by simp)

instance targetModules {modules : List (List String)} :
    Draws true (Tree.targetModules modules) [] := by
  unfold Tree.targetModules
  split
  · infer_instance
  · exact weaken inferInstance (fun _ => rfl) (by simp)

instance caseLabels {x : Option Print} [Each (Draws true) ps a] [Perhaps (Draws true) x b] :
    Draws true (Tree.caseLabels false ps x) (a ++ b) := by
  rw [Tree.caseLabels, if_neg Bool.false_ne_true]
  exact weaken inferInstance (fun _ => rfl) (by simp)

/-- Dimensions are printed with the annotations that come next in order, so all of these are
printed unless there are more of them. -/
theorem exists_annotatedDimensions {annotations : List (List Print)} (h : Each (Draws true) ps a)
    (h' : Each (Each (Draws true)) annotations b) :
    ∃ c, Draws true (Tree.annotatedDimensions ps annotations) c ∧
      (annotations.length ≤ ps.length → a ++ b ⊆ c) := by
  induction h generalizing annotations b with
  | nil =>
    refine ⟨[], nothing, fun hle => ?_⟩
    cases h' with
    | nil => exact List.Subset.refl _
    | cons => exact absurd hle (by simp)
  | @cons p ps a a' hp _ ih =>
    cases h' with
    | nil =>
      obtain ⟨c, hc, hsub⟩ := ih .nil
      refine ⟨a ++ c, ?_, fun _ => ?_⟩
      · rw [Tree.annotatedDimensions]
        exact weaken inferInstance (fun _ => rfl) (by simp)
      · have hrest := hsub (Nat.zero_le _)
        simp only [List.append_nil] at hrest ⊢
        exact List.append_subset.mpr
          ⟨List.subset_append_left .., List.subset_append_of_subset_right _ hrest⟩
    | @cons own rest b b' hown hrest =>
      obtain ⟨c, hc, hsub⟩ := ih hrest
      refine ⟨b ++ a ++ c, ?_, fun hle => ?_⟩
      · cases own with
        | nil =>
          cases hown
          rw [Tree.annotatedDimensions]
          exact weaken inferInstance (fun _ => rfl) (by simp)
        | cons q qs =>
          rw [Tree.annotatedDimensions]
          · exact weaken inferInstance (fun _ => rfl) (by simp)
          · exact nofun
      · have hle := hsub (Nat.le_of_succ_le_succ hle)
        simp_all

/-- A repeated text holds no nodes. -/
theorem each_replicate (n : Nat) (s : String) :
    Each (Draws true) (List.replicate n (.text s)) [] := by
  induction n with
  | zero => exact .nil
  | succ n ih =>
    have htext : Draws true (.text s) [] := weaken inferInstance (fun _ => rfl) (by simp)
    exact .cons htext ih

/-- The dimensions of a new array draw their sizes, and all annotations if each of these has its
dimension. -/
theorem exists_newDimensions (extra : Nat) {annotations : List (List Print)}
    (h : Each (Draws true) ps a) (h' : Each (Each (Draws true)) annotations b) :
    ∃ c, Draws true (Tree.newDimensions ps extra annotations) c ∧
      (annotations.length ≤ ps.length + extra → a ++ b ⊆ c) := by
  have hsizes : Each (Draws true) (ps.map fun p => .all [.text "[", p, .text "]"]) a :=
    h.map fun p c hp => weaken inferInstance (fun _ => rfl) (by simp)
  obtain ⟨c, hc, hsub⟩ := exists_annotatedDimensions
    (hsizes.append (each_replicate extra "[]")) h'
  rw [List.length_append, List.length_map, List.length_replicate, List.append_nil] at hsub
  exact ⟨c, hc, hsub⟩

end Draws

/-! ### Trees -/

/-- Whether a tree of a form may be printed as nothing at all. -/
def Form.mayBeBlank : Form → Bool
  | .node f => f.mayBeBlank
  | .statement | .block | .typeDeclaration | .moduleDeclaration | .packageDeclaration
  | .importDeclaration => false
  | _ => true

/-- What a form is printed as prints nodes. -/
def Form.Drawn : (f : Form) → f.Printed → List Part → Prop
  | .list f => Each f.Drawn
  | .option f => Perhaps f.Drawn
  | f => fun p a => Draws f.mayBeBlank (f.flatten p) a

/-- Whether trees of a form cannot leave out any node. -/
def Form.isWhole : Form → Bool
  | .list f | .option f => f.isWhole
  | .expression | .switchLabel => false
  | _ => true

/-- What a form is printed as draws the nodes of the form when it is written down. -/
theorem Form.Drawn.flatten {f : Form} {p : f.Printed} {a : List Part} (h : f.Drawn p a) :
    Draws f.mayBeBlank (f.flatten p) a := by
  induction f generalizing a with
  | list f ih =>
    have hmap : Each (Draws true) (List.map f.flatten p) a :=
      Each.map (R := f.Drawn) h fun _ _ hp => (ih hp).weaken (fun _ => rfl) (List.Subset.refl _)
    exact Draws.all
  | option f ih =>
    exact Draws.optional (R := f.Drawn) h fun _ _ hp =>
      (ih hp).weaken (fun _ => rfl) (List.Subset.refl _)
  | _ => exact h

namespace Tree

variable {f : Form}

/-- Whole trees show all their nodes. -/
theorem shown_eq_parts (t : Tree f) (h : f.isWhole = true) : t.shown = t.parts := by
  induction t with
  | cons head tail ihhead ihtail => 
    rw [shown, ihhead h, ihtail h]
    rfl
  | present tree ih => exact ih h
  | _ => first | rfl | cases h

/-- A list is printed as one print for each item. -/
theorem length_print : (t : Tree (.list f)) → List.length t.print = t.toList.length
  | .nil => rfl
  | .cons _ tail => congrArg (· + 1) (length_print tail)

/-- A literal is printed as its own text, and has no nodes inside. -/
theorem flatten_of_literal? {t : Tree f} {l : LiteralText} (h : t.literal? = some l) :
    f.flatten t.print = Print.text l.text ∧ t.shown = [] ∧ f.mayBeBlank = true := by
  cases t with
  | literal =>
    cases h
    exact ⟨rfl, rfl, rfl⟩
  | _ => cases h

/-- A literal is printed by a single stroke. -/
theorem exists_strokes {t : Tree f} (h : f.Drawn t.print t.shown) :
    ∃ strokes, Stroke.replay strokes = f.flatten t.print ∧ Settles f.mayBeBlank strokes ∧
      (∀ q ∈ t.shown, q.DrawnIn strokes) ∧
      ∀ l, t.literal? = some l → strokes = [.text l.text] := by
  cases hliteral : t.literal? with
  | none =>
    obtain ⟨strokes, hreplay, hsettles, hinside⟩ := h.flatten.sketched
    exact ⟨strokes, hreplay, hsettles, hinside, nofun⟩
  | some l =>
    obtain ⟨hflatten, hshown, hblank⟩ := flatten_of_literal? hliteral
    rw [hflatten, hshown, hblank]
    refine ⟨[.text l.text], rfl, fun _ fresh => ⟨fresh && l.text.isEmpty, rfl, ?_⟩, nofun, ?_⟩
    · exact fun h => ⟨(Bool.and_eq_true_iff.mp h).1, rfl⟩
    · rintro _ ⟨⟩
      rfl

/-- Whatever strokes print the tree in a node print the node. -/
theorem drawn_located {t : Tree f} (h : f.Drawn t.print t.shown) (span : Span) (source : String) :
    (Form.node f).Drawn (print (.located t span source)) [⟨f, .located t span source⟩] := by
  obtain ⟨strokes, hreplay, hsettles, hinside, hliteral⟩ := exists_strokes h
  refine ⟨strokes, hreplay, hsettles, ?_⟩
  intro p hp r hr
  obtain rfl := List.mem_singleton.mp hp
  cases hr with
  | refl => exact ⟨strokes, List.infix_rfl, hreplay, hliteral⟩
  | child hq hr => exact hinside _ hq _ hr

/-- A label that is a lone `default` has that as its only entry. -/
theorem eq_of_isDefault {labels : Tree (.list (.node .caseLabel))}
    {guard : Tree (.option (.node .expression))} (h : (switchLabel labels guard).isDefault = true) :
    ∃ span source, labels = .cons (.located .caseDefault span source) .nil := by
  cases labels with
  | nil => cases h
  | cons head tail =>
    cases head with
    | located label span source =>
      cases tail <;> cases label <;> first | exact ⟨span, source, rfl⟩ | cases h

/-- A lone `default` is printed like its only label. -/
theorem drawn_switchLabel {labels : Tree (.list (.node .caseLabel))}
    {guard : Tree (.option (.node .expression))} (h : Each (Draws true) labels.print labels.parts)
    (h' : Perhaps (Draws true) guard.print guard.parts) :
    Draws true (print (.switchLabel labels guard)) (switchLabel labels guard).shown := by
  change Draws true (caseLabels (switchLabel labels guard).isDefault labels.print guard.print)
    (if (switchLabel labels guard).isDefault && guard.isPresent then [] else
      labels.parts ++ guard.parts)
  cases hdefault : (switchLabel labels guard).isDefault with
  | false => exact Draws.caseLabels
  | true =>
    obtain ⟨span, source, rfl⟩ := eq_of_isDefault hdefault
    have hlabel : Draws true (.text "default")
        (parts (.cons (.located .caseDefault span source) .nil)) := by
      change Draws true (.all [.text "default"]) _
      exact @Draws.all _ _ h
    refine hlabel.weaken id ?_
    cases guard with
    | absent => exact List.append_subset.mpr ⟨List.Subset.refl _, List.nil_subset _⟩
    | present => exact List.nil_subset _

/-- The annotations of a new array are printed if it has as many dimensions. -/
theorem drawn_arrayCreation {element : Tree (.node .type)}
    {dimensions : Tree (.list (.node .expression))} {extra : Nat}
    {annotations : Tree (.list (.list (.node .annotationUse)))}
    {initializer : Tree (.option (.node .expression))}
    (helement : Draws true element.print element.parts)
    (hdimensions : Each (Draws true) dimensions.print dimensions.parts)
    (hannotations : Each (Each (Draws true)) annotations.print annotations.parts)
    (hinitializer : Perhaps (Draws true) initializer.print initializer.parts) :
    Draws true (print (.arrayCreation element dimensions extra annotations initializer))
      (arrayCreation element dimensions extra annotations initializer).shown := by
  obtain ⟨c, hc, hsub⟩ := Draws.exists_newDimensions extra hdimensions hannotations
  rw [length_print, length_print] at hsub
  change Draws true (.all [_, _, newDimensions _ _ _, _])
    (if decide (dimensions.toList.length + extra < annotations.toList.length) then [] else
      element.parts ++ dimensions.parts ++ annotations.parts ++ initializer.parts)
  refine Draws.weaken inferInstance (fun _ => rfl) ?_
  split
  · exact List.nil_subset _
  · rename_i hlt
    have hparts := hsub (by simpa using hlt)
    simp only [List.append_subset, List.nil_append, List.append_nil] at hparts ⊢
    grind

/-- Every tree is printed by strokes that draw the nodes that it shows. -/
theorem drawn (t : Tree f) : f.Drawn t.print t.shown := by
  induction t with
  | nil => exact .nil
  | cons head tail ihhead ihtail => exact .cons ihhead ihtail
  | absent => exact .none
  | present tree ih => exact .some ih
  | located tree span source ih => exact drawn_located ih span source
  | arrayCreation =>
    simp (disch := decide) only [shown_eq_parts, Form.Drawn, Form.flatten, Form.mayBeBlank] at *
    exact drawn_arrayCreation ‹_› ‹_› ‹_› ‹_›
  | switchLabel =>
    simp (disch := decide) only [shown_eq_parts, Form.Drawn, Form.flatten, Form.mayBeBlank] at *
    exact drawn_switchLabel ‹_› ‹_›
  | literal | simpleName | caseNull | caseDefault | voidType | varType | unnamedPattern
  | keywordModifier | sealedModifier | nonSealedModifier | emptyMember | emptyStatement =>
    simp only [Form.Drawn, Form.flatten, Form.mayBeBlank] at *
    change Draws _ (.text _) _
    exact Draws.relax (by simp)
  | unary =>
    simp (disch := decide) only [shown_eq_parts, Form.Drawn, Form.flatten, Form.mayBeBlank] at *
    change Draws _ (operation _ _ _) _
    exact Draws.relax (by simp)
  | implicitParameters =>
    simp only [Form.Drawn, Form.flatten, Form.mayBeBlank] at *
    change Draws _ (implicitNames _ _) _
    exact Draws.relax (by simp)
  | noArguments => exact Draws.weaken Draws.nothing id (List.Subset.refl _)
  | testType _ ih | testPattern _ ih | lambdaExpression _ ih | lambdaBlock _ ih
  | expressionTarget _ ih | typeTarget _ ih | ruleBlock _ ih | ruleThrow _ ih | caseConstant _ ih
  | casePattern _ ih | blockStatement _ ih | localClass _ ih | forDeclaration _ ih
  | resourceExpression _ ih | elementExpression _ ih | elementAnnotated _ ih
  | annotatedModifier _ ih | memberType _ ih =>
    rw [shown_eq_parts _ rfl] at ih
    exact Draws.weaken ih (by simp [Form.mayBeBlank]) (List.Subset.refl _)
  | rules | groups | block =>
    simp (disch := decide) only [shown_eq_parts, Form.Drawn, Form.flatten, Form.mayBeBlank] at *
    change Draws _ (.bracedLines _) _
    exact Draws.relax (by simp)
  | classType | intersectionType | unionType | forExpressions =>
    simp (disch := decide) only [shown_eq_parts, Form.Drawn, Form.flatten, Form.mayBeBlank] at *
    change Draws _ (.join _ _) _
    exact Draws.relax (by simp)
  | explicitParameters | namedArguments =>
    simp (disch := decide) only [shown_eq_parts, Form.Drawn, Form.flatten, Form.mayBeBlank] at *
    change Draws _ (.parens _) _
    exact Draws.relax (by simp)
  | switchGroup =>
    simp (disch := decide) only [shown_eq_parts, Form.Drawn, Form.flatten, Form.mayBeBlank] at *
    change Draws _ (caseGroup _ _) _
    exact Draws.relax (by simp)
  | compilationUnit =>
    simp (disch := decide) only [shown_eq_parts, Form.Drawn, Form.flatten, Form.mayBeBlank] at *
    change Draws _ (sections _ _ _ _) _
    exact Draws.relax (by simp)
  | _ =>
    simp (disch := decide) only [shown_eq_parts, Form.Drawn, Form.flatten, Form.mayBeBlank] at *
    change Draws _ (.all _) _
    refine Draws.weaken inferInstance (by simp) ?_
    simp only [List.append_nil, List.nil_append, ← List.append_assoc]
    exact List.Subset.refl _

/-- A tree is printed by the same strokes wherever it stands. They print the nodes in it, each by
strokes that stand together, and a literal by its text alone. To a line that something stands on,
they add text only, and end on such a line and as deep as they start: the text that they add from
depth zero, in which every line that they have started themselves is indented, if it is not empty,
by four blanks for each step of the depth. -/
theorem print_indents_alike (t : Tree f) :
    ∃ strokes, Stroke.replay strokes = f.flatten t.print ∧
      (∀ l, t.literal? = some l → strokes = [.text l.text]) ∧
      (∀ p ∈ t.shown, p.DrawnIn strokes) ∧
      (∀ output, f.flatten t.print ⟨output, 0, false⟩ =
        ⟨output ++ (Stroke.lines strokes 0 false).text, 0, false⟩) ∧
      ∀ output depth, f.flatten t.print ⟨output, depth, false⟩ =
        ⟨output ++ ((Stroke.lines strokes 0 false).indentedBelow (4 * depth)).text,
          depth, false⟩ := by
  obtain ⟨strokes, hreplay, hsettles, hinside, hliteral⟩ := exists_strokes t.drawn
  have hafter (depth : Nat) : Stroke.after strokes depth false = some (depth, false) := by
    obtain ⟨fresh, heq, himp⟩ := hsettles depth false
    cases fresh with
    | false => exact heq
    | true => exact absurd (himp rfl).1 Bool.false_ne_true
  refine ⟨strokes, hreplay, hliteral, hinside, ?_, ?_⟩
  · intro output
    rw [← hreplay]
    exact Stroke.replay_eq (hafter 0) output
  · intro output depth
    have hlines := Stroke.lines_add (Option.isSome_of_eq_some (hafter 0)) depth
    rw [Nat.add_zero, if_neg Bool.false_ne_true] at hlines
    rw [← hreplay, Stroke.replay_eq (hafter depth) output, hlines]
    rfl

/-- A text block in a block that is printed at depth one. Its own lines stay where they are. -/
example :
    let text : LiteralText := ⟨.textBlock, none, "\"\"\"\n  a\"\"\""⟩
    let statement := expressionStatement (.located (.literal text) .nowhere "")
    (Tree.print (.block (.cons (.located statement .nowhere "") .nil)) ⟨"do ", 1, false⟩).output =
      "do \x7b\n        \"\"\"\n  a\"\"\";\n    \x7d" := by
  decide +kernel

end Tree

end JavaSyntax
