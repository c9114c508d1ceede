import DesignByNumbers.Proofs.Lexer
import DesignByNumbers.Proofs.Likeness.Run
import DesignByNumbers.Proofs.Run

/-!
# Proofs.Session — programs run one after the other

A session runs programs one after the other, each in the state left by the one before. It
does what the program does that has the texts of all of them, one below the other, except
that a place in that program is further down by the lines above.

* `ofSource_intercalate` — the tokens of programs one below the other.
* `session_like` — a session ends as the programs one below the other do.
* `run_composes` — running composes over tokens, over texts and over sessions.
-/

namespace DesignByNumbers

/-! ## Programs one below the other -/

namespace Token

/-- How many lines programs take, one below the other. -/
def height : List String → Nat
  | [] => 0
  | source :: rest => (linesOf source).length + height rest

/-- The tokens of programs one below the other, the first one below a number of lines. -/
def ofSources (lines : Nat) : List String → List Token
  | [] => []
  | source :: rest =>
    (ofSource source).map (below lines) ++ ofSources (lines + (linesOf source).length) rest

theorem below_zero (tokens : List Token) : tokens.map (below 0) = tokens := by
  refine (List.map_congr_left fun token _ => ?_).trans (List.map_id tokens)
  simp [below, Location.below]

theorem below_below (lines lines' : Nat) (tokens : List Token) :
    (tokens.map (below lines')).map (below lines) = tokens.map (below (lines + lines')) := by
  rw [List.map_map]
  refine List.map_congr_left fun token _ => ?_
  have hLine : token.location.line + (lines' : Int) + (lines : Int) =
      token.location.line + ((lines + lines' : Nat) : Int) := by omega
  simp only [Function.comp_apply, below, Location.below, hLine]

/-- The tokens of programs whose texts are put together with line feeds between them. -/
theorem ofSource_intercalate (sources : List String) :
    ofSource (String.intercalate "\n" sources) = ofSources 0 sources := by
  suffices h : ∀ lines, (ofSource (String.intercalate "\n" sources)).map (below lines) =
      ofSources lines sources by
    rw [← h 0, below_zero]
  induction sources with
  | nil => exact fun _ => rfl
  | cons source rest ih =>
    intro lines
    cases rest with
    | nil => rw [String.intercalate_singleton, ofSources, ofSources, List.append_nil]
    | cons source' rest' =>
      rw [String.intercalate_cons_cons, ofSource_newline, List.map_append, below_below, ih]
      rfl

/-- Further programs stand below the lines of the first ones. -/
theorem ofSources_append (lines : Nat) (sources others : List String) :
    ofSources lines (sources ++ others) =
      ofSources lines sources ++ ofSources (lines + height sources) others := by
  induction sources generalizing lines with
  | nil => rfl
  | cons source rest ih =>
    rw [List.cons_append, ofSources, ofSources, ih, height, Nat.add_assoc, List.append_assoc]

/-- Programs one below the other are well formed when each of them is. -/
theorem verify_ofSources {lines : Nat} {sources : List String}
    (h : ∀ source ∈ sources, Token.verify (ofSource source) = .ok ()) :
    Token.verify (ofSources lines sources) = .ok () := by
  refine verify_of_isWellFormed ?_
  induction sources generalizing lines with
  | nil => simp [ofSources]
  | cons source rest ih =>
    obtain ⟨hSource, hRest⟩ := List.forall_mem_cons.mp h
    refine List.forall_mem_append.mpr ⟨?_, ih hRest⟩
    exact List.forall_mem_map.mpr (isWellFormed_of_verify hSource)

end Token

namespace Program

open Token (ofSource ofSources height below)

/-! ## Sessions -/

/-- Runs programs one after the other, each in the state left by the one before, up to the
first one that fails. -/
def session : List String → State → Option Outcome
  | [], state => some (.done state)
  | source :: rest, state =>
    (runSource source state).bind fun outcome => outcome.andThen (session rest)

/-- A session that ends normally has run its first program. -/
theorem exists_of_session_cons {source : String} {rest : List String} {state final : State}
    (h : session (source :: rest) state = some (.done final)) :
    ∃ between, Token.verify (ofSource source) = .ok () ∧
      run (ofSource source) state = some (.done between) ∧
      session rest between = some (.done final) := by
  obtain ⟨outcome, hSource, hRest⟩ := Option.bind_eq_some_iff.mp h
  cases outcome with
  | failed failure between => cases hRest
  | done between =>
    rw [runSource, runVerified] at hSource
    split at hSource
    · cases hSource
    next hVerify => exact ⟨between, hVerify, hSource, hRest⟩

theorem runSource_of_verify {source : String} (h : Token.verify (ofSource source) = .ok ())
    (state : State) : runSource source state = run (ofSource source) state := by
  rw [runSource, runVerified, h]

/-- A program whose run ends normally leaves the session to the others. -/
theorem session_cons_of_run {source : String} {rest : List String} {state between : State}
    (hVerify : Token.verify (ofSource source) = .ok ())
    (hRun : run (ofSource source) state = some (.done between)) :
    session (source :: rest) state = session rest between := by
  rw [session, runSource_of_verify hVerify, hRun]
  rfl

/-- A session of one program. -/
theorem session_singleton (source : String) (state : State) :
    session [source] state = runSource source state := by
  rw [session]
  cases runSource source state with
  | none => rfl
  | some outcome => cases outcome <;> rfl

/-! ## Places -/

/-- Where a token stands in a session, and where it stands when the programs of the session
are put one below the other. The commands that were in scope before stay where they are. -/
inductive SamePlace (scope : Scope) (sources : List String) : Location → Location → Prop
  | inScope {name : String} {command : Command} {token : Token}
      (hCommand : (name, .command command) ∈ scope.bindings.toList)
      (hToken : token ∈ command.body) : SamePlace scope sources token.location token.location
  | inSource {above rest : List String} {source : String} {token : Token}
      (hSources : sources = above ++ source :: rest) (hToken : token ∈ ofSource source) :
      SamePlace scope sources token.location (token.location.below (height above))

/-- Tokens that stay where they are. -/
theorem tokensLike_self {located : Location → Location → Prop} {tokens : List Token}
    (h : ∀ token ∈ tokens, located token.location token.location) :
    (Likeness.ofPlaces located).TokensLike tokens tokens := by
  refine List.forall₂_same.mpr fun token hToken => ?_
  exact { kind := rfl, word := fun _ => rfl, other := fun _ => rfl, wellFormed := rfl,
          located := h token hToken }

/-- A number of lines further down, tokens are alike. -/
theorem tokensLike_below {located : Location → Location → Prop} {tokens : List Token} {lines : Nat}
    (h : ∀ token ∈ tokens, located token.location (token.location.below lines)) :
    (Likeness.ofPlaces located).TokensLike tokens (tokens.map (below lines)) := by
  refine List.forall₂_map_right_iff.mpr (List.forall₂_same.mpr fun token hToken => ?_)
  exact { kind := rfl, word := fun _ => rfl, other := fun _ => rfl, wellFormed := rfl,
          located := h token hToken }

/-- The state before a session is like itself. -/
theorem stateLike_self (state : State) (sources : List String) :
    (Likeness.ofPlaces (SamePlace state.scope sources)).StateLike state state where
  scope := by
    refine List.forall₂_same.mpr fun entry hEntry => ⟨rfl, ?_⟩
    obtain ⟨name, binding⟩ := entry
    cases binding with
    | number text => exact .number text
    | command command =>
      refine .command rfl (List.forall₂_same.mpr fun _ _ => rfl) ?_
      exact tokensLike_self fun token hToken => .inScope hEntry hToken
  trace := rfl

/-! ## Sessions and programs one below the other -/

/-- Every program is like itself where it stands among programs one below the other. -/
def Placed (κ : Likeness) (lines : Nat) (sources : List String) : Prop :=
  ∀ above source rest, sources = above ++ source :: rest →
    κ.TokensLike (ofSource source) ((ofSource source).map (below (lines + height above)))

theorem Placed.head {κ : Likeness} {lines : Nat} {source : String} {rest : List String}
    (h : Placed κ lines (source :: rest)) :
    κ.TokensLike (ofSource source) ((ofSource source).map (below lines)) :=
  h [] source rest rfl

theorem Placed.tail {κ : Likeness} {lines : Nat} {source : String} {rest : List String}
    (h : Placed κ lines (source :: rest)) :
    Placed κ (lines + (Token.linesOf source).length) rest := by
  intro above source' rest' hRest
  have hPlaced := h (source :: above) source' rest' (by rw [hRest, List.cons_append])
  rwa [show height (source :: above) = (Token.linesOf source).length + height above from rfl,
    ← Nat.add_assoc] at hPlaced

theorem placed_samePlace (scope : Scope) (sources : List String) :
    Placed (Likeness.ofPlaces (SamePlace scope sources)) 0 sources := by
  intro above source rest hSources
  rw [Nat.zero_add]
  exact tokensLike_below fun token hToken => .inSource hSources hToken

/-- Where all programs of a session but the last one end normally, the session ends as the
programs one below the other do. -/
theorem session_like {κ : Likeness} {earlier : List String} {source : String} {lines : Nat}
    {state state' between : State} (hPlaced : Placed κ lines (earlier ++ [source]))
    (hSource : Token.verify (ofSource source) = .ok ()) (hState : κ.StateLike state state')
    (hEarlier : session earlier state = some (.done between)) :
    Option.Rel κ.OutcomeLike (session (earlier ++ [source]) state)
      (run (ofSources lines (earlier ++ [source])) state') := by
  induction earlier generalizing lines state state' with
  | nil =>
    rw [List.nil_append, session_singleton, runSource_of_verify hSource, ofSources, ofSources,
      List.append_nil]
    exact Likeness.run_like hPlaced.head hState
  | cons first earlier ih =>
    obtain ⟨next, hVerify, hRun, hRest⟩ := exists_of_session_cons hEarlier
    have hFirst := Likeness.run_like hPlaced.head hState
    rw [hRun] at hFirst
    generalize hRun' : run ((ofSource first).map (below lines)) state' = result' at hFirst
    cases hFirst with
    | some hOutcome =>
      cases hOutcome with
      | done hNext =>
        -- behind the first program, both go on from states that are alike
        rw [List.cons_append, session_cons_of_run hVerify hRun, ofSources, run_append _ hRun']
        exact ih hPlaced.tail hNext hRest

theorem verify_of_session {earlier : List String} {state between : State}
    (h : session earlier state = some (.done between)) :
    ∀ source ∈ earlier, Token.verify (ofSource source) = .ok () := by
  induction earlier generalizing state with
  | nil => simp
  | cons first earlier ih =>
    obtain ⟨next, hVerify, -, hRest⟩ := exists_of_session_cons h
    exact List.forall_mem_cons.mpr ⟨hVerify, ih hRest⟩

/-- Behind a run that ends normally, further tokens run as they do on their own in the state
that it left, to the same end; the tokens of a text below another one are its own, further down
by the lines above; and so a session whose programs end normally, up to the last one, ends as
the program with all their texts does: with the same trace, the same scope and the same failure,
except that places in it are further down. -/
theorem run_composes :
    (∀ (first second : List Token) (state between : State),
      run first state = some (.done between) →
        run (first ++ second) state = run second between) ∧
    (∀ above source : String, ofSource (above ++ "\n" ++ source) =
      ofSource above ++ (ofSource source).map (below (Token.linesOf above).length)) ∧
    ∀ (earlier : List String) (source : String) (state between : State),
      Token.verify (ofSource source) = .ok () → session earlier state = some (.done between) →
        Option.Rel (Likeness.ofPlaces (SamePlace state.scope (earlier ++ [source]))).OutcomeLike
          (session (earlier ++ [source]) state)
          (runSource (String.intercalate "\n" (earlier ++ [source])) state) := by
  refine ⟨fun first second _ _ => run_append second, Token.ofSource_newline, ?_⟩
  intro earlier source state between hSource hEarlier
  have hSources : ∀ program ∈ earlier ++ [source], Token.verify (ofSource program) = .ok () :=
    List.forall_mem_append.mpr ⟨verify_of_session hEarlier, List.forall_mem_singleton.mpr hSource⟩
  rw [runSource, Token.ofSource_intercalate, runVerified, Token.verify_ofSources hSources]
  exact session_like (placed_samePlace _ _) hSource (stateLike_self _ _) hEarlier

/-- A program that calls a command of the one before and then breaks off. -/
theorem run_composes_shade :
    let definition := "Command Shade c \x7b Paper c \x7d"
    let source := "Shade 5\nLine"
    let command : Command := ⟨"Shade", ["c"], ((ofSource definition).drop 4).take 2⟩
    let between : State := .initial (Scope.empty.bind "Shade" (.command command))
    run (ofSource definition ++ ofSource source) (.initial .empty) =
        run (ofSource source) between ∧
      ofSource (definition ++ "\n" ++ source) =
        ofSource definition ++ (ofSource source).map (below 1) ∧
      Option.Rel (Likeness.ofPlaces (SamePlace .empty [definition, source])).OutcomeLike
        (session [definition, source] (.initial .empty))
        (runSource (definition ++ "\n" ++ source) (.initial .empty)) := by
  intro definition source command between
  have hRun : run (ofSource definition) (.initial .empty) = some (.done between) := by
    obtain ⟨head, rest, hTokens, hRead⟩ : ∃ head rest, ofSource definition = head :: rest ∧
        Instruction.ofStatement (State.initial .empty).scope head (head :: rest).getLast? rest =
          .ok (.bind "Shade" (.command command), []) :=
      ⟨(ofSource definition).head!, (ofSource definition).tail, by decide +kernel⟩
    rw [hTokens, run_single hRead]
    rfl
  have hSession : session [definition] (.initial .empty) = some (.done between) := by
    rw [session_cons_of_run (by decide +kernel) hRun]
    rfl
  have hLines : (Token.linesOf definition).length = 1 := by decide +kernel
  refine ⟨run_composes.1 _ _ _ _ hRun, ?_, ?_⟩
  · rw [← hLines]
    exact run_composes.2.1 definition source
  · exact run_composes.2.2 [definition] source _ _ (by decide +kernel) hSession

end Program

end DesignByNumbers
