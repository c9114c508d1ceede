import DesignByNumbers.Program
import DesignByNumbers.Proofs.Tree.Reading

/-!
# Proofs.Tree.Interpretation — a run carries out the meaning of its tree

A program that evaluates on its tree runs on its tokens: it draws the same operations and
leaves the same scope, where a command of the scope has the tokens of its body in place of the
tree. The blocks that are not run may hold any tree.

* `Evaluates.runs` — every phrase that evaluates runs, by induction on its evaluation.
* `run_of_evaluates` — the same for whole programs.
-/

namespace DesignByNumbers.Tree

open Token (Content Takes content)
open Program (execute rounds run statements)

/-- A phrase runs: its tokens, in a scope that represents the given one, draw the given
operations and leave a scope that represents the other one. -/
def Runs : Phrase → Scope → List DrawOp → Scope → Prop
  | .statement statement, names, drawn, names' =>
    ∀ head stretch scope trace, (head :: stretch).map content = statement.contents →
      Represents names scope →
      ∃ instruction scope', Takes (Instruction.ofStatement scope head) stretch instruction ∧
        execute run instruction ⟨scope, trace⟩ = some (.done ⟨scope', trace ++ drawn.toArray⟩) ∧
        Represents names' scope'
  | .program body, names, drawn, names' =>
    ∀ tokens last scope trace, tokens.map content = programContents body →
      Represents names scope →
      ∃ scope', statements run last tokens ⟨scope, trace⟩ =
          some (.done ⟨scope', trace ++ drawn.toArray⟩) ∧ Represents names' scope'
  | .rounds counter index last body, names, drawn, names' =>
    ∀ tokens step scope trace, tokens.map content = programContents body →
      Represents names scope → (index ≠ last → step = (last - index).sign) →
      index.natAbs < 10 ^ Numeral.digitLimit → last.natAbs < 10 ^ Numeral.digitLimit →
      ∃ scope', rounds run counter.val tokens step ((last - index).natAbs + 1) index
          ⟨scope, trace⟩ = some (.done ⟨scope', trace ++ drawn.toArray⟩) ∧
        Represents names' scope'

namespace Runs

variable {names names' : Scope} {drawn : List DrawOp}

theorem append_toArray (trace : Array DrawOp) (left right : List DrawOp) :
    trace ++ left.toArray ++ right.toArray = trace ++ (left ++ right).toArray := by
  simp

/-- A body that runs is run as a block. -/
theorem run {body : List Statement} (h : Runs (.program body) names drawn names')
    {tokens : List Token} {scope : DesignByNumbers.Scope} (trace : Array DrawOp)
    (hTokens : tokens.map content = programContents body) (hScope : Represents names scope) :
    ∃ scope', Program.run tokens ⟨scope, trace⟩ =
        some (.done ⟨scope', trace ++ drawn.toArray⟩) ∧ Represents names' scope' := by
  rw [Program.run_eq]
  exact h tokens tokens.getLast? scope trace hTokens hScope

/-- A statement of a keyword that draws one operation. -/
theorem ofDraw (keyword : Keyword) {statement : Statement} {contents : List Content} {op : DrawOp}
    (hStatement : statement.contents = .word keyword.text :: contents)
    (hTakes : ∀ head stretch scope, stretch.map content = contents → Represents names scope →
      Takes (Instruction.ofKeyword scope keyword head) stretch (.draw op)) :
    Runs (.statement statement) names [op] names := by
  intro head stretch scope trace hContents hScope
  rw [hStatement, List.map_cons, List.cons.injEq] at hContents
  obtain ⟨hHead, hStretch⟩ := hContents
  refine ⟨.draw op, scope, takes_ofKeyword keyword hHead (hTakes head stretch scope hStretch hScope), ?_,
    hScope⟩
  rw [execute, State.draw, Array.push_eq_append]

/-! ## Statements -/

theorem ofDot {column row tree : Value} {x y colour : String}
    (hColumn : names.drawable? column = some x) (hRow : names.drawable? row = some y)
    (hColour : names.drawable? tree = some colour) :
    Runs (.statement (.dot column row tree)) names [.point x y colour] names := by
  refine ofDraw .assign rfl fun head stretch scope hContents hScope => ?_
  obtain ⟨opening, behind, rfl, hOpening, hBehind⟩ := List.map_eq_cons_iff.mp hContents
  refine takes_dotOfAssignment hOpening ?_ (takes_ofDot hScope hBehind hColumn hRow hColour)
  have hLength := congrArg List.length hBehind
  simp only [List.length_map, List.length_append, List.length_cons] at hLength
  omega

theorem ofAssignment {target : Word} {tree : Value} {text : String}
    (hValue : names.value? tree = some text) :
    Runs (.statement (.assign target tree)) names [] (names.assign target.val text) := by
  intro head stretch scope trace hContents hScope
  obtain ⟨hHead, hStretch⟩ := List.cons.inj hContents
  obtain ⟨name, behind, rfl, hName, hBehind⟩ := List.map_eq_cons_iff.mp hStretch
  refine ⟨_, _, takes_ofKeyword .assign hHead
    (takes_ofAssignment hScope head hName hBehind hValue), rfl, ?_⟩
  exact hScope.assign target.val (hScope.isPlain_value hValue)

theorem ofDefinition {name : Word} {parameters : List Word} {body : List Statement}
    (hName : Keyword.ofText? name.val = none) (hFresh : names.contains name.val = false)
    (hParameters : ∀ parameter ∈ parameters, names.contains parameter.val = false) :
    Runs (.statement (.define name parameters body)) names []
      (names.insert name.val (.command ⟨name.val, parameters.map Subtype.val, body⟩)) := by
  intro head stretch scope trace hContents hScope
  obtain ⟨hHead, hStretch⟩ := List.cons.inj hContents
  obtain ⟨word, behind, rfl, hWord, hBehind⟩ := List.map_eq_cons_iff.mp hStretch
  obtain ⟨tokens, hTokens, hTakes⟩ :=
    takes_ofDefinition hScope head hWord hBehind hName hFresh hParameters
  refine ⟨_, _, takes_ofKeyword .define hHead hTakes, rfl, ?_⟩
  exact hScope.define name.val (parameters.map Subtype.val) hTokens

theorem ofCheckHeld {comparison : Comparison} {left right : Value} {body : List Statement}
    {leftText rightText : String} (hLeft : names.value? left = some leftText)
    (hRight : names.value? right = some rightText)
    (hHolds : comparison.holds? leftText rightText = some true)
    (hBody : Runs (.program body) names drawn names') :
    Runs (.statement (.check comparison left right body)) names drawn names' := by
  intro head stretch scope trace hContents hScope
  obtain ⟨hHead, hStretch⟩ := List.cons.inj hContents
  obtain ⟨mark, behind, rfl, hMark, hBehind⟩ := List.map_eq_cons_iff.mp hStretch
  obtain ⟨tokens, hTokens, hTakes⟩ :=
    takes_ofCheck hScope head hMark hBehind hLeft hRight hHolds
  obtain ⟨scope', hRun, hScope'⟩ := hBody.run trace hTokens hScope
  exact ⟨_, scope', takes_ofKeyword (.check comparison) hHead hTakes, hRun, hScope'⟩

theorem ofCheckFailed {comparison : Comparison} {left right : Value} {body : List Statement}
    {leftText rightText : String} (hLeft : names.value? left = some leftText)
    (hRight : names.value? right = some rightText)
    (hHolds : comparison.holds? leftText rightText = some false) :
    Runs (.statement (.check comparison left right body)) names [] names := by
  intro head stretch scope trace hContents hScope
  obtain ⟨hHead, hStretch⟩ := List.cons.inj hContents
  obtain ⟨mark, behind, rfl, hMark, hBehind⟩ := List.map_eq_cons_iff.mp hStretch
  obtain ⟨tokens, hTokens, hTakes⟩ :=
    takes_ofCheck hScope head hMark hBehind hLeft hRight hHolds
  exact ⟨_, scope, takes_ofKeyword (.check comparison) hHead hTakes, rfl, hScope⟩

theorem ofCall {inner : Scope} {name : Name} {arguments : List Value} {command : Command}
    {texts : List String} (hCommand : names.get? name.val.val = some (.command command))
    (hCount : arguments.length = command.parameters.length)
    (hTexts : List.Forall₂ (fun tree text => names.value? tree = some text) arguments texts)
    (hBody : Runs (.program command.body) (names.withArguments command texts) drawn inner) :
    Runs (.statement (.call name arguments)) names drawn names := by
  intro head stretch scope trace hContents hScope
  obtain ⟨hHead, hStretch⟩ := List.cons.inj hContents
  obtain ⟨body, hGet, hTokens⟩ := hScope.command hCommand
  obtain ⟨child, hChild, hTakes⟩ := takes_ofCall hScope head body hStretch hCount hTexts
  -- what the body leaves in the scope of the call is forgotten
  obtain ⟨childAfter, hRun, -⟩ := hBody.run trace hTokens hChild
  have hKind : head.kind = .word := Token.kind_of_content hHead
  have hText : head.text = name.val.val := Token.text_of_content hHead
  refine ⟨.call child body, scope, ?_, ?_, hScope⟩
  · rw [Instruction.ofStatement, if_neg (by simp [hKind]), hText, name.property, hGet]
    exact hTakes
  · rw [execute, hRun]
    rfl

/-! ## Loops -/

theorem natAbs_lt_of_bounded? {text : String} (hPlain : Numeral.isPlain text = true) {value : Int}
    (h : Numeral.bounded? text = some value) : value.natAbs < 10 ^ Numeral.digitLimit := by
  have hParse : Numeral.parse? text = some value := by
    rw [Numeral.parse?_of_isPlain hPlain]
    exact h
  exact Numeral.natAbs_lt_of_parse? hParse

theorem ofLoop {counter : Word} {start finish : Value} {body : List Statement} {first last : Int}
    (hStart : names.integer? start = some first) (hFinish : names.integer? finish = some last)
    (hRounds : Runs (.rounds counter first last body) names drawn names') :
    Runs (.statement (.loop counter start finish body)) names drawn names' := by
  intro head stretch scope trace hContents hScope
  obtain ⟨hHead, hStretch⟩ := List.cons.inj hContents
  obtain ⟨name, behind, rfl, hName, hBehind⟩ := List.map_eq_cons_iff.mp hStretch
  obtain ⟨tokens, hTokens, hTakes⟩ := takes_ofLoop hScope head hName hBehind hStart hFinish
  obtain ⟨startText, hStartText, hFirst⟩ := Option.bind_eq_some_iff.mp hStart
  obtain ⟨finishText, hFinishText, hLast⟩ := Option.bind_eq_some_iff.mp hFinish
  have hFirstBound := natAbs_lt_of_bounded? (hScope.isPlain_value hStartText) hFirst
  have hLastBound := natAbs_lt_of_bounded? (hScope.isPlain_value hFinishText) hLast
  -- a loop of one round has a direction too, but never takes a step
  have hStep : first ≠ last → (if first ≤ last then 1 else -1) = (last - first).sign := by
    intro hNe
    split
    · exact (Int.sign_eq_one_of_pos (by omega)).symm
    · exact (Int.sign_eq_neg_one_of_neg (by omega)).symm
  obtain ⟨scope', hRun, hScope'⟩ :=
    hRounds tokens _ scope trace hTokens hScope hStep hFirstBound hLastBound
  exact ⟨_, scope', takes_ofKeyword .loop hHead hTakes, hRun, hScope'⟩

/-- One round of a loop binds the index and runs the body. -/
theorem rounds_succ {name : String} {block : List Token} {step index : Int}
    {scope scope' : DesignByNumbers.Scope} {trace trace' : Array DrawOp} {count : Nat}
    (hIndex : index.natAbs < 10 ^ Numeral.digitLimit)
    (hBody : Program.run block ⟨scope.bind name (.number (Numeral.decimal index)), trace⟩ =
      some (.done ⟨scope', trace'⟩)) :
    rounds Program.run name block step (count + 1) index ⟨scope, trace⟩ =
      rounds Program.run name block step count (index + step) ⟨scope', trace'⟩ := by
  rw [rounds, Numeral.print?_eq_some_iff.mpr ⟨hIndex, rfl⟩]
  show (Program.run block ⟨scope.bind name (.number (Numeral.decimal index)), trace⟩).bind _ = _
  rw [hBody]
  rfl

theorem ofLastRound {counter : Word} {last : Int} {body : List Statement}
    (hBody : Runs (.program body) (names.assign counter.val (Numeral.decimal last)) drawn names') :
    Runs (.rounds counter last last body) names drawn names' := by
  intro tokens step scope trace hTokens hScope _ hIndex _
  have hBound := hScope.assign counter.val (Numeral.isPlain_decimal last)
  obtain ⟨scope', hRun, hScope'⟩ := hBody.run trace hTokens hBound
  refine ⟨scope', ?_, hScope'⟩
  rw [Int.sub_self, rounds_succ hIndex hRun]
  rfl

theorem ofRound {between : Scope} {counter : Word} {index last : Int} {body : List Statement}
    {drawn' : List DrawOp} (hIndex : index ≠ last)
    (hBody : Runs (.program body) (names.assign counter.val (Numeral.decimal index)) drawn between)
    (hRest : Runs (.rounds counter (index + (last - index).sign) last body) between drawn' names') :
    Runs (.rounds counter index last body) names (drawn ++ drawn') names' := by
  intro tokens step scope trace hTokens hScope hStep hIndexBound hLastBound
  have hBound := hScope.assign counter.val (Numeral.isPlain_decimal index)
  obtain ⟨scopeBetween, hRun, hBetween⟩ := hBody.run trace hTokens hBound
  obtain rfl := hStep hIndex
  -- the next index is nearer to the last one, on the same side of it unless it is the last
  have hNext : index < last ∧ (last - index).sign = 1 ∨ last < index ∧ (last - index).sign = -1 := by
    rcases Int.lt_or_gt_of_ne hIndex with hLess | hGreater
    · exact .inl ⟨hLess, Int.sign_eq_one_of_pos (by omega)⟩
    · exact .inr ⟨hGreater, Int.sign_eq_neg_one_of_neg (by omega)⟩
  have hCount : (last - index).natAbs = (last - (index + (last - index).sign)).natAbs + 1 := by
    rcases hNext with ⟨_, hSign⟩ | ⟨_, hSign⟩ <;> rw [hSign] <;> omega
  have hNextBound : (index + (last - index).sign).natAbs < 10 ^ Numeral.digitLimit := by
    rcases hNext with ⟨_, hSign⟩ | ⟨_, hSign⟩ <;> rw [hSign] <;> omega
  have hNextStep : index + (last - index).sign ≠ last →
      (last - index).sign = (last - (index + (last - index).sign)).sign := by
    intro hNe
    rcases hNext with ⟨_, hSign⟩ | ⟨_, hSign⟩ <;> rw [hSign] at hNe ⊢
    · exact (Int.sign_eq_one_of_pos (by omega)).symm
    · exact (Int.sign_eq_neg_one_of_neg (by omega)).symm
  obtain ⟨scope', hRounds, hScope'⟩ := hRest tokens _ scopeBetween _ hTokens hBetween hNextStep
    hNextBound hLastBound
  refine ⟨scope', ?_, hScope'⟩
  rw [rounds_succ hIndexBound hRun, hCount, hRounds, append_toArray]

/-! ## Programs -/

theorem nil : Runs (.program []) names [] names := by
  intro tokens last scope trace hTokens hScope
  obtain rfl := List.map_eq_nil_iff.mp hTokens
  refine ⟨scope, ?_, hScope⟩
  rw [Program.statements_nil, Array.append_empty]

theorem cons {between : Scope} {statement : Statement} {rest : List Statement}
    {drawn' : List DrawOp} (hStatement : Runs (.statement statement) names drawn between)
    (hRest : Runs (.program rest) between drawn' names') :
    Runs (.program (statement :: rest)) names (drawn ++ drawn') names' := by
  intro tokens last scope trace hTokens hScope
  obtain ⟨front, behind, rfl, hFront, hBehind⟩ := List.map_eq_append_iff.mp hTokens
  obtain ⟨head, stretch, rfl⟩ : ∃ head stretch, front = head :: stretch := by
    cases front with
    | nil => exact absurd hFront.symm statement.contents_ne_nil
    | cons head stretch => exact ⟨head, stretch, rfl⟩
  -- the statement is read from the whole of what follows, of which it takes its own tokens
  obtain ⟨instruction, scopeBetween, hTakes, hExecute, hBetween⟩ :=
    hStatement head stretch scope trace hFront hScope
  obtain ⟨scope', hRun, hScope'⟩ :=
    hRest behind last scopeBetween (trace ++ drawn.toArray) hBehind hBetween
  have hRead : Instruction.ofStatement (State.mk scope trace).scope head last (stretch ++ behind) =
      .ok (instruction, behind) := hTakes last behind
  refine ⟨scope', ?_, hScope'⟩
  rw [List.cons_append, Program.statements_of_ok _ hRead, hExecute, Option.bind_some,
    Outcome.done_andThen, hRun, append_toArray]

end Runs

/-! ## The run of a program -/

/-- Every phrase that evaluates runs. -/
theorem Evaluates.runs {phrase : Phrase} {names names' : Scope} {drawn : List DrawOp}
    (h : Evaluates phrase names drawn names') : Runs phrase names drawn names' := by
  induction h with
  | paper hColour =>
    exact .ofDraw .paper rfl fun head _ _ hContents hScope =>
      takes_ofColour hScope .paper (Nat.le_refl 1) .background head hContents hColour
  | pen hColour =>
    exact .ofDraw .pen rfl fun head _ _ hContents hScope =>
      takes_ofColour hScope .pen (Nat.le_refl 1) .foreground head hContents hColour
  | line hLeft hBottom hRight hTop =>
    exact .ofDraw .line rfl fun head _ _ hContents hScope =>
      takes_ofLine hScope head hContents hLeft hBottom hRight hTop
  | dot hColumn hRow hColour => exact .ofDot hColumn hRow hColour
  | assign hValue => exact .ofAssignment hValue
  | loop hStart hFinish _ ih => exact .ofLoop hStart hFinish ih
  | checkHeld hLeft hRight hHolds _ ih => exact .ofCheckHeld hLeft hRight hHolds ih
  | checkFailed hLeft hRight hHolds => exact .ofCheckFailed hLeft hRight hHolds
  | define hName hFresh hParameters => exact .ofDefinition hName hFresh hParameters
  | call hCommand hCount hTexts _ ih => exact .ofCall hCommand hCount hTexts ih
  | done => exact .nil
  | next _ _ ihStatement ihRest => exact .cons ihStatement ihRest
  | lastRound _ ih => exact .ofLastRound ih
  | round hIndex _ _ ihBody ihRest => exact .ofRound hIndex ihBody ihRest

/-- A program that evaluates on its tree runs on its tokens, wherever they stand and whatever
was drawn before: it draws the same operations in the same order, and the scopes still have
the same numbers and the same commands under the same names. -/
theorem run_of_evaluates {body : List Statement} {names names' : Scope} {drawn : List DrawOp}
    (hEvaluates : Evaluates (.program body) names drawn names') {tokens : List Token}
    (hTokens : tokens.map content = programContents body) {scope : DesignByNumbers.Scope}
    (hScope : Represents names scope) (trace : Array DrawOp) :
    ∃ scope', run tokens ⟨scope, trace⟩ = some (.done ⟨scope', trace ++ drawn.toArray⟩) ∧
      Represents names' scope' :=
  hEvaluates.runs.run trace hTokens hScope

/-- A command that is called in every round of a loop. -/
theorem run_of_evaluates_shades :
    let shade : Command := ⟨"Shade", ["c"], [.paper (.name ⟨"c", by decide +kernel⟩)]⟩
    let source := "Command Shade c \x7b Paper c \x7d Repeat i 2 1 \x7b Shade i \x7d"
    ∃ scope', run (Token.ofSource source) (.initial .empty) =
        some (.done ⟨scope', #[.background "2", .background "1"]⟩) ∧
      Represents (.ofList [("Shade", .command shade), ("i", .number "1")]) scope' := by
  intro shade source
  let c : Word := ⟨"c", by decide +kernel⟩
  let i : Word := ⟨"i", by decide +kernel⟩
  let name : Name := ⟨⟨"Shade", by decide +kernel⟩, by decide +kernel⟩
  let names : Scope := .ofList [("Shade", .command shade)]
  -- a call draws its argument in a scope of its own
  have hCall : ∀ text, Numeral.bounded? text ≠ none →
      Evaluates (.program [.call name [.name i]]) (names.assign "i" text) [.background text]
        (names.assign "i" text) := by
    intro text hText
    have hColour : ((names.assign "i" text).withArguments shade [text]).drawable? (.name c) =
        some text := by
      obtain ⟨value, hValue⟩ := Option.ne_none_iff_exists'.mp hText
      show (Numeral.bounded? text).bind _ = _
      rw [hValue]
      rfl
    have hBody : Evaluates (.program shade.body) ((names.assign "i" text).withArguments shade [text])
        [.background text] ((names.assign "i" text).withArguments shade [text]) :=
      .next (.paper hColour) .done
    have hCommand : (names.assign "i" text).get? name.val.val = some (.command shade) := rfl
    exact .next (.call hCommand rfl (.cons rfl .nil) hBody) .done
  have hFirst := hCall "2" (by decide +kernel)
  have hSecond : Evaluates (.rounds i (2 + (1 - 2 : Int).sign) 1 [.call name [.name i]])
      (names.assign "i" "2") [.background "1"] (names.assign "i" "1") :=
    .lastRound (hCall "1" (by decide +kernel))
  have hRounds := Evaluates.round (by decide) hFirst hSecond
  have hFresh : ∀ parameter ∈ [c], NameMap.contains (.empty : Scope) parameter.val = false := by
    decide +kernel
  let program : List Statement := [.define name.val [c] shade.body,
    .loop i (.number ⟨"2", by decide +kernel⟩) (.number ⟨"1", by decide +kernel⟩)
      [.call name [.name i]]]
  have hProgram : Evaluates (.program program) .empty [.background "2", .background "1"]
      (names.assign "i" "1") :=
    .next (.define rfl rfl hFresh) (.next (.loop rfl rfl hRounds) .done)
  have hTokens : (Token.ofSource source).map content = programContents program := by
    decide +kernel
  exact run_of_evaluates hProgram hTokens NameMap.Related.empty #[]

end DesignByNumbers.Tree
