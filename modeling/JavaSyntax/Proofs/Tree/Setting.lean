import JavaSyntax.Proofs.Tree.Indentation
import JavaSyntax.Proofs.Tree.Script
import Mathlib.Data.List.Forall2

/-!
# What printing writes

Printing a tree writes its script: the words with nothing but white space in the gaps, and with
nothing where there is no gap. This is found for each way to print a list and then for all
trees by induction, as strokes whose texts are words and whose line feeds are gaps. What
indentation adds stands in gaps only.
-/

namespace JavaSyntax

open Mark

/-! ### Strokes that follow a script -/

/-- Strokes write a script if their texts are its words and its line feeds are gaps. A text may
be several words, with a blank for each gap between them. -/
inductive Stroke.Follow : List Stroke → Script → Prop
  | nil : Follow [] []
  | text {s : String} {ms more : Script} {rest : List Stroke} (hs : s.toList = ms.spelling)
    (hrest : Follow rest more) : Follow (.text s :: rest) (ms ++ more)
  | lineFeed {more : Script} {rest : List Stroke} (hrest : Follow rest more) :
    Follow (.lineFeed :: rest) (.gap :: more)
  | deeper {more : Script} {rest : List Stroke} (hrest : Follow rest more) :
    Follow (.deeper :: rest) more
  | shallower {more : Script} {rest : List Stroke} (hrest : Follow rest more) :
    Follow (.shallower :: rest) more

/-- Strokes in sequence write their scripts in sequence. -/
theorem Stroke.Follow.append {strokes rest : List Stroke} {ms more : Script}
    (h : Follow strokes ms) (h' : Follow rest more) : Follow (strokes ++ rest) (ms ++ more) := by
  induction h with
  | nil => exact h'
  | text hs _ ih =>
    rw [List.append_assoc]
    exact .text hs ih
  | lineFeed _ ih => exact .lineFeed ih
  | deeper _ ih => exact .deeper ih
  | shallower _ ih => exact .shallower ih

/-- A print that writes a script. -/
def Print.Follows (p : Print) (ms : Script) : Prop :=
  ∃ strokes, Stroke.replay strokes = p ∧ Stroke.Follow strokes ms

namespace Print.Follows

variable {p q : Print} {ms ns : Script} {ps qs : List Print} {ss us : List Script}

/-- Doing nothing writes an empty script. -/
theorem nothing : Follows id [] := ⟨[], rfl, .nil⟩

/-- Feeding a line writes a gap. -/
theorem newline : Follows Writer.newline [.gap] := ⟨[.lineFeed], rfl, .lineFeed .nil⟩

/-- Prints in sequence write their scripts in sequence. -/
theorem seq (hp : p.Follows ms) (hq : q.Follows ns) : Follows (fun w => q (p w)) (ms ++ ns) := by
  obtain ⟨strokes, rfl, hms⟩ := hp
  obtain ⟨more, rfl, hns⟩ := hq
  exact ⟨strokes ++ more, Stroke.replay_append strokes more, hms.append hns⟩

/-- A text that is some words with single blanks in the gaps. -/
theorem text {s : String} (h : s.toList = ms.spelling) : Follows (Print.text s) ms :=
  ⟨[.text s], rfl, by simpa using Stroke.Follow.text h .nil⟩

/-- A name is written as itself. -/
theorem name (n : String) : Follows (Print.text n) [.name n] :=
  text (by simp [Script.spelling, chars, Mark.name])

/-- A literal is written as its text. -/
theorem literal (l : LiteralText) : Follows (Print.text l.text) [.literal l] :=
  text (by simp [Script.spelling, chars, Mark.literal])

/-- The symbol of a kind is written as its sign. -/
theorem sign {kind : TokenKind} {s : String} (h : kind.symbol? = some s) :
    Follows (Print.text s) [.sign kind] :=
  text (by simp [Script.spelling, chars, Mark.sign, h])

/-- A keyword is written as itself. -/
theorem keyword (word : Keyword) : Follows (Print.text word.text) [.keyword word] := sign rfl

/-- A primitive type is written as its keyword. -/
theorem primitive (p : PrimitiveType) : Follows (Print.text p.text) [.keyword p.keyword] :=
  sign (by cases p <;> rfl)

/-- A binary operator is written as its sign. -/
theorem binary (operator : BinaryOperator) :
    Follows (Print.text operator.symbol) [.sign operator.token] :=
  sign (by cases operator <;> rfl)

/-- An assignment operator is written as its sign. -/
theorem assignment (operator : AssignmentOperator) :
    Follows (Print.text operator.symbol) [.sign operator.token] :=
  sign (by cases operator <;> rfl)

/-- Several prints write their scripts one after the other. -/
theorem all (h : List.Forall₂ Follows ps ss) : Follows (Print.all ps) (Script.all ss) := by
  induction h with
  | nil => exact nothing
  | cons hp _ ih => exact hp.seq ih

/-- Changing every print changes every script. -/
theorem each {g : Print → Print} {k : Script → Script} (h : List.Forall₂ Follows ps ss)
    (hg : ∀ p ms, Follows p ms → Follows (g p) (k ms)) :
    Follows (Print.each g ps) (ss.flatMap k) :=
  all <| List.forall₂_map_left_iff.mpr <| List.forall₂_map_right_iff.mpr <|
    h.imp fun p ms => hg p ms

/-- What stands between two prints stands between their scripts. -/
theorem separated {separator : Print} {between : Script} (hseparator : Follows separator between)
    (h : List.Forall₂ Follows ps ss) :
    Follows (Print.separated separator ps) (Script.join between ss) := by
  induction h with
  | nil => exact nothing
  | @cons p ms ps ss hp hps ih =>
    cases hps with
    | nil => exact hp
    | cons =>
      rw [Script.join, ← List.append_assoc]
      · exact (hp.seq hseparator).seq ih
      · exact nofun

/-- A separator is written between the scripts. -/
theorem join {separator : String} {between : Script} (hs : separator.toList = between.spelling)
    (h : List.Forall₂ Follows ps ss) :
    Follows (Print.join separator ps) (Script.join between ss) :=
  separated (text hs) h

/-- Brackets are written around the scripts, and separators between them. -/
theorem list {opening separator closing : String} {before between behind : Script}
    (hopening : opening.toList = before.spelling) (hseparator : separator.toList = between.spelling)
    (hclosing : closing.toList = behind.spelling) (h : List.Forall₂ Follows ps ss) :
    Follows (Print.list opening separator closing ps) (Script.list before between behind ss) := by
  unfold Print.list Script.list
  cases h with
  | nil => exact nothing
  | cons hp hps =>
    exact all (.cons (text hopening) (.cons (join hseparator (.cons hp hps))
      (.cons (text hclosing) .nil)))

/-- Type arguments are written in angles. -/
theorem angles (h : List.Forall₂ Follows ps ss) : Follows (Print.angles ps) (Script.angles ss) :=
  list rfl rfl rfl h

/-- Arguments are written in parentheses. -/
theorem parens (h : List.Forall₂ Follows ps ss) : Follows (Print.parens ps) (Script.parens ss) :=
  all (.cons (text rfl) (.cons (join rfl h) (.cons (text rfl) .nil)))

/-- A clause is written as a keyword and a list. -/
theorem clause {keyword : String} {word : Mark} (hword : keyword.toList = word.chars)
    (h : List.Forall₂ Follows ps ss) :
    Follows (Print.clause keyword ps) (Script.clause word ss) :=
  list (by simp [Script.spelling, hword, chars]) rfl rfl h

/-- Annotations and modifiers are written with a gap behind each. -/
theorem prefixes (h : List.Forall₂ Follows ps ss) :
    Follows (Print.prefixes ps) (Script.prefixes ss) :=
  each h fun _ _ hp => all (.cons hp (.cons (text rfl) .nil))

/-- Something in front of each print. -/
theorem leading {before : Print} {front : Script} (hbefore : Follows before front)
    (h : List.Forall₂ Follows ps ss) :
    Follows (Print.each (fun p => .all [before, p]) ps)
      (ss.flatMap fun ms => Script.all [front, ms]) :=
  each h fun _ _ hp => all (.cons hbefore (.cons hp .nil))

/-- An opening brace is written with a gap, as a line feed follows. -/
theorem openBrace : Follows Writer.openBrace [.sign .leftBrace, .gap] :=
  ⟨[.text "\x7b", .deeper, .lineFeed], rfl,
    @Stroke.Follow.text _ [.sign .leftBrace] _ _ rfl (.deeper (.lineFeed .nil))⟩

/-- A closing brace is written as itself. -/
theorem closeBrace : Follows Writer.closeBrace [.sign .rightBrace] :=
  ⟨[.shallower, .text "\x7d"], rfl, 
    .shallower (@Stroke.Follow.text _ [.sign .rightBrace] _ _ rfl .nil)⟩

/-- Each print on a line that ends after it. -/
theorem lines (h : List.Forall₂ Follows ps ss) :
    Follows (.each (fun p => .all [p, Writer.newline]) ps)
      (ss.flatMap fun s => Script.all [s, [.gap]]) :=
  each h fun _ _ hp => all (.cons hp (.cons newline .nil))

/-- Lines are written in braces, with gaps between them. -/
theorem bracedLines (h : List.Forall₂ Follows ps ss) :
    Follows (Print.bracedLines ps) (Script.bracedLines ss) := by
  unfold Print.bracedLines Script.bracedLines
  cases h with
  | nil => exact text rfl
  | cons hp hps =>
    exact all (.cons openBrace (.cons (lines (.cons hp hps)) (.cons closeBrace .nil)))

/-- A text that depends on a condition writes its words if that holds. -/
theorem textIf {condition : Bool} {s : String} (h : s.toList = ms.spelling) :
    Follows (Print.textIf condition s) (Script.onlyIf condition ms) := by
  cases condition with
  | true => exact text h
  | false => exact nothing

/-- A print that is repeated writes its script as often. -/
theorem times {n : Nat} (hp : Follows p ms) : Follows (Print.times n p) (Script.times n ms) :=
  all <| by
    induction n with
    | zero => exact .nil
    | succ n ih => exact .cons hp ih

/-- Modifiers are written with a gap behind each. -/
theorem requirements (modifiers : List RequiresModifier) :
    Follows (.all (modifiers.map fun m => .text (m.text ++ " ")))
      (Script.all (modifiers.map fun m => [.name m.text, .gap])) := by
  refine all (List.forall₂_map_left_iff.mpr (List.forall₂_map_right_iff.mpr ?_))
  refine List.forall₂_same.mpr fun m _ => text ?_
  simp [Script.spelling, chars, Mark.name]

/-! #### Names -/

/-- Texts that spell scripts, with a text between them that spells what stands between these. -/
theorem toList_intercalate {separator : String} {between : Script} {ts : List String}
    (hs : separator.toList = between.spelling)
    (h : List.Forall₂ (fun t ms => t.toList = Script.spelling ms) ts ss) :
    (separator.intercalate ts).toList = (Script.join between ss).spelling := by
  induction h with
  | nil => rfl
  | @cons t ms ts ss ht hts ih =>
    cases hts with
    | nil => simpa [Script.join] using ht
    | @cons u us ts ss =>
      change _ = (ms ++ (between ++ Script.join between (us :: ss))).spelling
      rw [String.intercalate_cons_cons, String.toList_append, String.toList_append, ih, ht, hs]
      simp [Script.spelling]

/-- Joined names are spelt as the script of the names. -/
theorem toList_names {separator : String} {between : Script}
    (hs : separator.toList = between.spelling) (ns : List String) :
    (separator.intercalate ns).toList = (Script.names between ns).spelling := by
  refine toList_intercalate hs (List.forall₂_map_right_iff.mpr (List.forall₂_same.mpr ?_))
  intro n _
  simp [Script.spelling, Mark.name, chars]

/-- Names with dots between them are written as names and dots. -/
theorem dots (ns : List String) : Follows (Print.text (dotted ns)) (Script.dots ns) :=
  text (toList_names rfl ns)

/-- A name that is made of names is written as names and dots. -/
theorem path (n : String) : Follows (Print.text n) (Script.path n) := by
  have hall : dotted ((n.toList.splitOn '.').map String.ofList) = n := by
    apply String.toList_inj.mp
    rw [dotted, String.toList_intercalate, List.map_map]
    have hid : String.toList ∘ String.ofList = id := funext fun _ => String.toList_ofList
    rw [hid, List.map_id]
    exact List.intercalate_splitOn '.'
  have hdots := dots ((n.toList.splitOn '.').map String.ofList)
  rwa [hall] at hdots

/-! #### Parts that may be missing -/

variable {α : Type} {x : Option Print} {y : Option Script}

/-- A part that may be missing is written if it is there. -/
theorem optional {β : Type} {R : α → β → Prop} {g : α → Print} {k : β → Script} {x : Option α}
    {y : Option β} (h : Option.Rel R x y) (hg : ∀ a b, R a b → Follows (g a) (k b)) :
    Follows (Print.optional g x) (Script.optional k y) := by
  cases h with
  | none => exact nothing
  | some hab => exact hg _ _ hab

/-- Something that may be missing, with what stands before it. -/
theorem optionalLast {s : String} {front : Script} (hs : s.toList = front.spelling)
    (h : Option.Rel Follows x y) :
    Follows (Print.optional (fun p => .all [.text s, p]) x)
      (Script.optional (fun ms => Script.all [front, ms]) y) :=
  optional h fun _ _ hp => all (.cons (text hs) (.cons hp .nil))

/-- A name that may be missing is written behind what stands before it. -/
theorem optionalName {s : String} {front : Script} (hs : s.toList = front.spelling)
    (x : Option String) :
    Follows (Print.optional (fun n => .all [.text s, .text n]) x)
      (Script.optional (fun n => Script.all [front, [.name n]]) x) := by
  cases x with
  | none => exact nothing
  | some n => exact all (.cons (text hs) (.cons (name n) .nil))

/-- A print that may be missing writes its script if it is there. -/
theorem optionalId (h : Option.Rel Follows x y) :
    Follows (Print.optional id x) (Script.optional id y) :=
  optional h fun _ _ hp => hp

/-- A body that may be missing is written behind a gap. -/
theorem optionalBody {x : Option (List Print)} {y : Option (List Script)}
    (h : Option.Rel (List.Forall₂ Follows) x y) :
    Follows (Print.optional (fun ps => .all [.text " ", .bracedLines ps]) x)
      (Script.optional (fun ss => Script.all [[.gap], Script.bracedLines ss]) y) :=
  optional h fun _ _ hps => all (.cons (text rfl) (.cons (bracedLines hps) .nil))

/-- Arguments that may be missing are written in parentheses. -/
theorem optionalParens {x : Option (List Print)} {y : Option (List Script)}
    (h : Option.Rel (List.Forall₂ Follows) x y) :
    Follows (Print.optional Print.parens x) (Script.optional Script.parens y) :=
  optional h fun _ _ hps => parens hps

/-- Type arguments that may be left out are written in angles, even if there are none. -/
theorem optionalArguments {x : Option (List Print)} {y : Option (List Script)}
    (h : Option.Rel (List.Forall₂ Follows) x y) :
    Follows (Print.optional (fun ps => if ps.isEmpty then .text "<>" else Print.angles ps) x)
      (Script.optional
        (fun ss => if ss.isEmpty then [.sign .less, .sign .greater] else Script.angles ss) y) := by
  refine optional h fun ps ss hps => ?_
  cases hps with
  | nil => exact text rfl
  | cons hp hps => exact angles (.cons hp hps)

/-- What stands before a selector is written with a dot. -/
theorem qualified (h : Option.Rel Follows x y) :
    Follows (Tree.qualified x) (Tree.qualifiedScript y) :=
  optional h fun _ _ hp => all (.cons hp (.cons (text rfl) .nil))

/-! #### Parts of trees -/

/-- Parameters without types are written as names, in parentheses if need be. -/
theorem implicitNames (names : List String) (inParens : Bool) :
    Follows (Tree.implicitNames names inParens) (Tree.implicitScript names inParens) := by
  have hall : Follows (.all [.text "(", .text (", ".intercalate names), .text ")"])
      (Script.all [[.sign .leftParen], Script.names [.sign .comma, .gap] names,
        [.sign .rightParen]]) :=
    all (.cons (text rfl) (.cons (text (toList_names rfl names)) (.cons (text rfl) .nil)))
  match names, inParens with
  | [n], false => exact name n
  | [], _ | [_], true | _ :: _ :: _, _ => exact hall

/-- An operation is written as its operator and operand, in their order. -/
theorem operation {operator : UnaryOperator} {gap : String} {margin : Script}
    (hgap : gap.toList = margin.spelling) (hp : Follows p ms) :
    Follows (Tree.operation operator gap p) (Tree.operationScript operator margin ms) := by
  have hoperator : Follows (Print.text operator.symbol) [.sign operator.token] :=
    sign (by cases operator <;> rfl)
  unfold Tree.operation Tree.operationScript
  split
  · exact all (.cons hp (.cons hoperator .nil))
  · exact all (.cons hoperator (.cons (text hgap) (.cons hp .nil)))

/-- The label of a switch is written as its keyword, its entries and its guard. -/
theorem caseLabels (isDefault : Bool) (h : List.Forall₂ Follows ps ss)
    (hguard : Option.Rel Follows x y) :
    Follows (Tree.caseLabels isDefault ps x) (Tree.labelsScript isDefault ss y) := by
  unfold Tree.caseLabels Tree.labelsScript
  cases isDefault with
  | true => exact text rfl
  | false =>
    exact all (.cons (text rfl) (.cons (join rfl h) (.cons (optionalLast rfl hguard) .nil)))

/-- The end of a method is written as its body or as a semicolon. -/
theorem methodEnd (h : Option.Rel Follows x y) :
    Follows (Tree.methodEnd x) (Tree.methodEndScript y) := by
  cases h with
  | none => exact text rfl
  | some hp => exact all (.cons (text rfl) (.cons hp .nil))

/-- Type parameters are written in angles with a gap behind them. -/
theorem leadingTypeParameters (h : List.Forall₂ Follows ps ss) :
    Follows (Tree.leadingTypeParameters ps) (Tree.leadingParametersScript ss) := by
  unfold Tree.leadingTypeParameters Tree.leadingParametersScript
  cases h with
  | nil => exact nothing
  | cons hp hps => exact all (.cons (angles (.cons hp hps)) (.cons (text rfl) .nil))

/-- The modules that something is exported to are written behind a keyword. -/
theorem targetModules (modules : List (List String)) :
    Follows (Tree.targetModules modules) (Tree.targetScript modules) := by
  unfold Tree.targetModules Tree.targetScript
  split
  · exact nothing
  · refine all (.cons (text rfl) (.cons (text (toList_intercalate rfl ?_)) .nil))
    rw [List.forall₂_map_left_iff, List.forall₂_map_right_iff, List.forall₂_same]
    exact fun names _ => toList_names rfl names

/-- Each dimension after the annotations that come next in order. -/
theorem annotatedDimensions {annotations : List (List Print)} {marks : List (List Script)}
    (h : List.Forall₂ Follows ps ss) (h' : List.Forall₂ (List.Forall₂ Follows) annotations marks) :
    Follows (Tree.annotatedDimensions ps annotations) (Tree.dimensionScripts ss marks) := by
  induction h generalizing annotations marks with
  | nil => exact nothing
  | cons hp _ ih =>
    cases h' with
    | nil => exact all (.cons hp (.cons (ih .nil) .nil))
    | cons hown hrest =>
      cases hown with
      | nil => exact all (.cons hp (.cons (ih hrest) .nil))
      | cons hq hqs =>
        exact all (.cons (text rfl) (.cons (prefixes (.cons hq hqs))
          (.cons hp (.cons (ih hrest) .nil))))

/-- The dimensions of a new array are written as their sizes and as empty brackets. -/
theorem newDimensions (extra : Nat) {annotations : List (List Print)} {marks : List (List Script)}
    (h : List.Forall₂ Follows ps ss) (h' : List.Forall₂ (List.Forall₂ Follows) annotations marks) :
    Follows (Tree.newDimensions ps extra annotations)
      (Tree.newDimensionsScript ss extra marks) := by
  have hsizes : List.Forall₂ Follows (ps.map fun p => .all [.text "[", p, .text "]"])
      (ss.map fun s => Script.all [[.sign .leftBracket], s, [.sign .rightBracket]]) := by
    rw [List.forall₂_map_left_iff, List.forall₂_map_right_iff]
    exact h.imp fun p ms hp => all (.cons (text rfl) (.cons hp (.cons (text rfl) .nil)))
  have hextra : List.Forall₂ Follows (List.replicate extra (.text "[]"))
      (List.replicate extra [.sign .leftBracket, .sign .rightBracket]) := by
    induction extra with
    | zero => exact .nil
    | succ n ih => exact .cons (text rfl) ih
  exact annotatedDimensions (List.rel_append hsizes hextra) h'

/-- There are no prints exactly if there are no scripts. -/
theorem isEmpty_iff (h : List.Forall₂ Follows ps ss) : ps.isEmpty = ss.isEmpty := by
  cases h <;> rfl

/-- The body of an enumeration is written as its constants and its members. -/
theorem enumBody (h : List.Forall₂ Follows ps ss) (h' : List.Forall₂ Follows qs us) :
    Follows (Tree.enumBody ps qs) (Tree.enumScript ss us) := by
  unfold Tree.enumBody Tree.enumScript
  rw [isEmpty_iff h, isEmpty_iff h']
  split
  · exact text rfl
  · have hconstants : Follows (.separated (.all [.text ",", Writer.newline]) ps)
        (Script.join [.sign .comma, .gap] ss) :=
      separated (all (.cons (sign rfl) (.cons newline .nil))) h
    refine all (.cons openBrace (.cons hconstants (.cons ?_ (.cons closeBrace .nil))))
    split
    · exact newline
    · exact all (.cons (text rfl) (.cons newline (.cons (lines h') .nil)))

/-- The labels and the statements of a group are on lines of their own. -/
theorem caseGroup (h : List.Forall₂ Follows ps ss) (h' : List.Forall₂ Follows qs us) :
    Follows (Tree.caseGroup ps qs) (Tree.groupScript ss us) := by
  have hlabels : List.Forall₂ Follows (ps.map fun p => .all [p, .text ":"])
      (ss.map fun s => Script.all [s, [.sign .colon]]) := by
    rw [List.forall₂_map_left_iff, List.forall₂_map_right_iff]
    exact h.imp fun p ms hp => all (.cons hp (.cons (text rfl) .nil))
  have hindent : Follows Writer.indent [] := ⟨[.deeper], rfl, .deeper .nil⟩
  have hdedent : Follows Writer.dedent [] := ⟨[.shallower], rfl, .shallower .nil⟩
  have hall := all (.cons (separated newline hlabels) (.cons hindent
    (.cons (leading newline h') (.cons hdedent .nil))))
  simpa [Tree.caseGroup, Tree.groupScript, Script.all] using hall

/-- A part that may be missing is a list of one or none, with its script. -/
theorem toList_forall₂ (h : Option.Rel Follows x y) : List.Forall₂ Follows x.toList y.toList := by
  cases h with
  | none => exact .nil
  | some hp => exact .cons hp .nil

/-- The imports are one section, and each type is one. -/
theorem sections {z : Option Print} {w : Option Script} (hx : Option.Rel Follows x y)
    (h : List.Forall₂ Follows ps ss) (h' : List.Forall₂ Follows qs us)
    (hz : Option.Rel Follows z w) :
    Follows (Tree.sections x ps qs z) (Tree.sectionsScript y ss us w) := by
  have himported : List.Forall₂ Follows
      (if ps.isEmpty then [] else [.separated Writer.newline ps])
      (if ss.isEmpty then [] else [Script.join [.gap] ss]) := by
    rw [isEmpty_iff h]
    split
    · exact .nil
    · exact .cons (separated newline h) .nil
  have hfeeds : Follows (.all [Writer.newline, Writer.newline]) [.gap, .gap] :=
    all (.cons newline (.cons newline .nil))
  exact separated hfeeds (List.rel_append (List.rel_append (List.rel_append
    (toList_forall₂ hx) himported) h') (toList_forall₂ hz))

end Print.Follows

/-! ### Trees -/

/-- What a form is printed as writes the script of the form. -/
def Form.Follows : (f : Form) → f.Printed → f.Scripted → Prop
  | .list f => List.Forall₂ f.Follows
  | .option f => Option.Rel f.Follows
  | .node f => f.Follows
  | f => fun p ms => (f.flatten p).Follows (f.unroll ms)

/-- What a form is printed as writes the script of the form when it is written down. -/
theorem Form.Follows.flatten {f : Form} {p : f.Printed} {ms : f.Scripted} (h : f.Follows p ms) :
    (f.flatten p).Follows (f.unroll ms) := by
  induction f with
  | list f ih =>
    refine Print.Follows.all (List.forall₂_map_left_iff.mpr (List.forall₂_map_right_iff.mpr ?_))
    exact List.Forall₂.imp (fun _ _ => ih) h
  | option f ih => exact Print.Follows.optional (R := f.Follows) h fun _ _ => ih
  | node f ih => exact ih h
  | _ => exact h

namespace Tree

variable {f : Form}

/-- A tree is printed by strokes that write its script. -/
theorem follows_script (t : Tree f) : f.Follows t.print t.script := by
  induction t with
  | nil => exact .nil
  | cons head tail ihhead ihtail => exact .cons ihhead ihtail
  | absent => exact .none
  | present tree ih => exact .some ih
  | located tree span source ih => exact ih
  | testType _ ih | testPattern _ ih | lambdaExpression _ ih | lambdaBlock _ ih
  | expressionTarget _ ih | typeTarget _ ih | ruleBlock _ ih | ruleThrow _ ih | caseConstant _ ih
  | casePattern _ ih | blockStatement _ ih | localClass _ ih | forDeclaration _ ih
  | resourceExpression _ ih | elementExpression _ ih | elementAnnotated _ ih
  | annotatedModifier _ ih | memberType _ ih => exact ih
  | simpleName n => exact Print.Follows.name n
  | literal l => exact Print.Follows.literal l
  | unary operator operand ih =>
    refine Print.Follows.operation ?_ ih
    unfold operatorGap operatorMargin
    split <;> rfl
  | implicitParameters names inParens => exact Print.Follows.implicitNames names inParens
  | rules _ ih | groups _ ih | block _ ih => exact Print.Follows.bracedLines ih
  | classType _ ih | intersectionType _ ih | unionType _ ih | forExpressions _ ih =>
    exact Print.Follows.join rfl ih
  | explicitParameters _ ih | namedArguments _ ih => exact Print.Follows.parens ih
  | switchGroup _ _ ih ih' => exact Print.Follows.caseGroup ih ih'
  | switchLabel labels guard ih ih' => exact Print.Follows.caseLabels _ ih ih'
  | compilationUnit _ _ _ _ ihpackage ihimports ihtypes ihmodule =>
    exact Print.Follows.sections ihpackage ihimports ihtypes ihmodule
  | caseNull | caseDefault | voidType | varType | unnamedPattern | sealedModifier
  | nonSealedModifier | emptyMember | emptyStatement =>
    simp only [Form.Follows, Form.flatten, Form.unroll]
    exact Print.Follows.text (by rfl)
  | keywordModifier word =>
    simp only [Form.Follows, Form.flatten, Form.unroll]
    exact Print.Follows.keyword word
  | noArguments => exact Print.Follows.nothing
  | _ =>
    simp only [Form.Follows, Form.flatten, Form.unroll] at *
    refine Print.Follows.all ?_
    -- each part is written by its lemma or by induction, and fixed texts are compared
    simp +decide only [List.forall₂_cons, List.Forall₂.nil, and_true,
      Print.Follows.text, Print.Follows.name, Print.Follows.all, Print.Follows.join,
      Print.Follows.list, Print.Follows.angles, Print.Follows.parens, Print.Follows.clause,
      Print.Follows.prefixes, Print.Follows.leading, Print.Follows.bracedLines,
      Print.Follows.textIf, Print.Follows.times, Print.Follows.dots, Print.Follows.path,
      Print.Follows.binary, Print.Follows.assignment, Print.Follows.primitive,
      Print.Follows.requirements,
      Print.Follows.optionalLast, Print.Follows.optionalName, Print.Follows.optionalId,
      Print.Follows.optionalBody, Print.Follows.optionalParens, Print.Follows.optionalArguments,
      Print.Follows.qualified, Print.Follows.methodEnd, Print.Follows.leadingTypeParameters,
      Print.Follows.targetModules, Print.Follows.newDimensions, Print.Follows.enumBody, *]

end Tree

/-! ### White space in the gaps -/

/-- Characters that are the words of a script, with white space in each gap. Only a gap behind
the last word may be empty. -/
inductive Script.Spaced : Script → List Char → Prop
  | nil : Spaced [] []
  | word {kind : TokenKind} {text : String} {ms : Script} {cs : List Char} (h : Spaced ms cs) :
    Spaced (.word kind text :: ms) (text.toList ++ cs)
  | gap {blanks : List Char} {ms : Script} {cs : List Char}
    (hblanks : ∀ c ∈ blanks, c ∈ [' ', '\n']) (hgap : blanks ≠ [] ∨ ms.words = [])
    (h : Spaced ms cs) : Spaced (.gap :: ms) (blanks ++ cs)

namespace Script

variable {ms more : Script} {cs : List Char}

/-- A script that is spelt with single blanks is spaced. -/
theorem Spaced.spelling (ms : Script) (h : Spaced more cs) :
    Spaced (ms ++ more) (ms.spelling ++ cs) := by
  induction ms with
  | nil => exact h
  | cons m ms ih =>
    rw [Script.spelling, List.flatMap_cons, List.append_assoc]
    cases m with
    | gap => exact .gap (by simp [chars]) (.inl (by simp [chars])) ih
    | word kind text => exact .word ih

/-- Margins are made of spaces. -/
theorem eq_of_mem_margin {depth : Nat} {c : Char} (h : c ∈ (Writer.margin depth).toList) :
    c = ' ' := by
  have hmargin : Writer.margin depth = String.ofList (List.replicate (4 * depth) ' ') ++ "" :=
    Stroke.margin_add depth 0
  rw [hmargin, String.append_empty, String.toList_ofList] at h
  exact List.eq_of_mem_replicate h

/-- A text is written behind the indentation of the line, if it starts one. -/
theorem exists_write {s : String} (hs : s ≠ "") (w : Writer) :
    ∃ margin, (w.write s).output.toList = w.output.toList ++ (margin ++ s.toList) ∧
      (∀ c ∈ margin, c = ' ') ∧ (w.atLineStart = false → margin = []) ∧
      (w.write s).atLineStart = false := by
  rw [Writer.write, if_neg (by simpa using hs)]
  cases hstart : w.atLineStart with
  | true =>
    refine ⟨(Writer.margin w.depth).toList, ?_, fun c => eq_of_mem_margin, fun h => ?_, rfl⟩
    · simp [String.toList_append]
    · cases h
  | false => exact ⟨[], by simp [String.toList_append], by simp, fun _ => rfl, by simp⟩

/-- What strokes add to a writer is the script that they write. If the writer starts a line, its
indentation stands before that. -/
theorem spaced_of_follow {strokes : List Stroke} (h : Stroke.Follow strokes ms) (w : Writer) :
    ∃ margin cs, (Stroke.replay strokes w).output.toList = w.output.toList ++ (margin ++ cs) ∧
      (∀ c ∈ margin, c = ' ') ∧ (w.atLineStart = false → margin = []) ∧ Spaced ms cs := by
  induction h generalizing w with
  | nil => exact ⟨[], [], by simp [Stroke.replay], by simp, fun _ => rfl, .nil⟩
  | @text s ms more rest hs _ ih =>
    rw [Stroke.replay_cons]
    by_cases hempty : s = ""
    · subst hempty
      obtain ⟨margin, cs, houtput, hmargin, hstart, hspaced⟩ := ih w
      have hall := hspaced.spelling ms
      rw [← hs] at hall
      exact ⟨margin, cs, houtput, hmargin, hstart, hall⟩
    · obtain ⟨margin, hwrite, hmargin, hstart, hgone⟩ := exists_write hempty w
      obtain ⟨none, cs, houtput, -, hnone, hspaced⟩ := ih (w.write s)
      obtain rfl := hnone hgone
      have hall := hspaced.spelling ms
      rw [← hs] at hall
      refine ⟨margin, s.toList ++ cs, ?_, hmargin, hstart, hall⟩
      rw [Stroke.apply, houtput, hwrite]
      simp
  | @lineFeed more rest _ ih =>
    obtain ⟨margin, cs, houtput, hmargin, -, hspaced⟩ := ih w.newline
    refine ⟨[], '\n' :: margin ++ cs, ?_, by simp, fun _ => rfl, .gap ?_ (.inl (by simp)) hspaced⟩
    · rw [Stroke.replay_cons, Stroke.apply, houtput]
      simp [Writer.newline]
    · simpa using fun c hc => Or.inl (hmargin c hc)
  | deeper _ ih => exact ih w.indent
  | shallower _ ih => exact ih w.dedent

/-! #### Closing angles -/

/-- Putting closing angles together makes no words where there are none. -/
theorem words_fuse_eq_nil (h : ms.words = []) : ms.fuse.words = [] := by
  fun_induction Script.fuse ms with
  | case1 | case2 => cases h
  | case3 m ms _ _ ih =>
    cases m with
    | gap => exact ih h
    | word => cases h
  | case4 => rfl

/-- Closing angles that are put together are the same characters. -/
theorem Spaced.fuse (h : Spaced ms cs) : Spaced ms.fuse cs := by
  fun_induction Script.fuse ms generalizing cs with
  | case1 a b c ms ih =>
    obtain _ | ha := h
    obtain _ | hb := ha
    obtain _ | hc := hb
    simpa using @Spaced.word .unsignedShiftRight (a ++ b ++ c) _ _ (ih hc)
  | case2 a b ms _ ih =>
    obtain _ | ha := h
    obtain _ | hb := ha
    simpa using @Spaced.word .shiftRight (a ++ b) _ _ (ih hb)
  | case3 m ms _ _ ih =>
    cases h with
    | word h => exact .word (ih h)
    | gap hblanks hgap h => exact .gap hblanks (hgap.imp_right words_fuse_eq_nil) (ih h)
  | case4 => exact h

/-! #### Line feeds at the end -/

/-- No word of a script ends in a line feed. -/
def Trim (ms : Script) : Prop :=
  ∀ w ∈ ms.words, ∃ c, w.2.toList.getLast? = some c ∧ c ≠ '\n'

/-- The first word is not empty and does not end in a line feed. -/
theorem Trim.head {kind : TokenKind} {text : String} (h : Trim (.word kind text :: ms)) :
    ∃ c, text.toList.getLast? = some c ∧ c ≠ '\n' :=
  h _ List.mem_cons_self

/-- The rest of a trim script is trim. -/
theorem Trim.tail {m : Mark} (h : Trim (m :: ms)) : Trim ms := by
  intro w hw
  cases m with
  | gap => exact h w hw
  | word => exact h w (List.mem_cons_of_mem _ hw)

/-- Only a script without words is spaced by no characters. -/
theorem words_eq_nil_of_spaced (h : Spaced ms []) (hwords : Trim ms) : ms.words = [] := by
  generalize hcs : [] = cs at h
  induction h with
  | nil => rfl
  | word h ih =>
    obtain ⟨c, hlast, -⟩ := hwords.head
    obtain ⟨htext, -⟩ := List.append_eq_nil_iff.mp hcs.symm
    rw [htext] at hlast
    cases hlast
  | gap hblanks hgap h ih =>
    obtain ⟨-, hrest⟩ := List.append_eq_nil_iff.mp hcs.symm
    exact ih hwords.tail hrest.symm

/-- Line feeds at the end stand in gaps behind the last word. -/
theorem Spaced.finish (h : Spaced ms cs) (hwords : Trim ms) :
    Spaced ms (cs.reverse.dropWhile (· == '\n')).reverse := by
  induction h with
  | nil => exact .nil
  | @word kind text ms cs h ih =>
    obtain ⟨c, hlast, hc⟩ := hwords.head
    rw [List.getLast?_eq_head?_reverse] at hlast
    obtain ⟨front, hfront⟩ := List.head?_eq_some_iff.mp hlast
    have hkeep : text.toList.reverse.dropWhile (· == '\n') = text.toList.reverse := by
      rw [hfront, List.dropWhile_cons_of_neg (by simpa using hc)]
    have hall := @Spaced.word kind text _ _ (ih hwords.tail)
    rw [List.reverse_append, List.dropWhile_append, hkeep]
    split
    · rename_i hnone
      rwa [List.isEmpty_iff.mp hnone, List.reverse_nil, List.append_nil,
        ← List.reverse_reverse text.toList] at hall
    · rwa [List.reverse_append, List.reverse_reverse]
  | @gap blanks ms cs hblanks hgap h ih =>
    have hrest := ih hwords.tail
    rw [List.reverse_append, List.dropWhile_append]
    split
    · rename_i hnone
      rw [List.isEmpty_iff.mp hnone] at hrest
      have hall := @Spaced.gap (blanks.reverse.dropWhile (· == '\n')).reverse _ _ ?_
        (.inr (words_eq_nil_of_spaced hrest hwords.tail)) hrest
      · rwa [List.reverse_nil, List.append_nil] at hall
      · intro c hc
        exact hblanks c (List.mem_reverse.mp
          ((List.dropWhile_suffix _).subset (List.mem_reverse.mp hc)))
    · rw [List.reverse_append, List.reverse_reverse]
      exact .gap hblanks hgap hrest

end Script

/-- The canonical source of a tree is its words, with white space in the gaps. -/
theorem Tree.spaced_canonical {f : Form} (t : Tree f)
    (hwords : t.setting.Trim) :
    t.setting.Spaced t.canonical.toList := by
  obtain ⟨strokes, hreplay, hfollow⟩ := t.follows_script.flatten
  obtain ⟨margin, cs, houtput, -, hmargin, hspaced⟩ :=
    Script.spaced_of_follow hfollow Writer.empty
  obtain rfl := hmargin rfl
  have hfinish := hspaced.fuse.finish hwords
  rw [← Tree.setting] at hfinish
  rw [Tree.canonical, Print.run, Writer.finish, String.toList_ofList, ← hreplay, houtput]
  simpa [Writer.empty] using hfinish

end JavaSyntax
