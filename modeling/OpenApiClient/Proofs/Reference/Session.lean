import OpenApiClient.Reference.Session

/-!
What a session remembers does not show. Whatever was asked before, with success or without, it answers as a session
does that is asked for the first time, and as the document does without one.
-/

namespace OpenApiClient

open Reference

namespace Reference

-- What can be asked about a reference: where it points to, or what it leads to in the end.
inductive Question where
  | node (reference : String)
  | schema (reference : String)
  | meantSchema (reference : String)
  | response (reference : String)
  | parameter (reference : String)
  | requestBody (reference : String)

-- What a reference leads to comes with the last reference of the chain.
inductive Answer where
  | node (node : Node)
  | schema (terminal : String) (s : Schema)
  | response (terminal : String) (r : Response)
  | parameter (terminal : String) (p : Parameter)
  | requestBody (terminal : String) (b : RequestBody)

def ask {m : Type → Type} [Monad m] (look : Lookup m) (steps : Nat) :
    Question → ExceptT ResolveError m Answer
  | .node reference => do return .node (← look reference)
  | .schema reference => do
    let (terminal, s) ← destination look .schema steps reference
    return .schema terminal s
  | .meantSchema reference => do
    let (terminal, s) ← meantSchema look steps reference
    return .schema terminal s
  | .response reference => do
    let (terminal, r) ← destination look .response steps reference
    return .response terminal r
  | .parameter reference => do
    let (terminal, p) ← destination look .parameter steps reference
    return .parameter terminal p
  | .requestBody reference => do
    let (terminal, b) ← destination look .requestBody steps reference
    return .requestBody terminal b

end Reference

-- The answer of the document, which remembers nothing.
def Document.answer (d : Document) (question : Question) : Except ResolveError Answer :=
  Id.run (ask d.look d.maxSteps question).run

namespace Reference.Session

def answer (d : Document) (question : Question) : Query (Except ResolveError Answer) :=
  (ask (look d) d.maxSteps question).run

-- The answers to questions that are asked one after the other.
def answers (d : Document) (questions : List Question) : Query (List (Except ResolveError Answer)) :=
  questions.mapM (answer d)

-- All that is remembered is what the document says.
def Sound (d : Document) (session : Session) : Prop :=
  ∀ {reference node}, session.known.lookup reference = some node → d.resolve reference = .ok node

-- A computation comes to the same as without a session, in any session that is sound, and leaves a sound one.
def Agrees {α : Type} (d : Document) (x : ExceptT ResolveError Query α) (y : ExceptT ResolveError Id α) : Prop :=
  ∀ session, Sound d session → ∃ later, Sound d later ∧ x.run.run session = (y.run, later)

variable {d : Document} {α β : Type}

theorem run_bind (x : Query α) (f : α → Query β) (session : Session) :
    (x >>= f).run session = (f (x.run session).1).run (x.run session).2 :=
  rfl

theorem sound_empty : Sound d {} :=
  nofun

theorem Sound.remember {session : Session} {reference : String} {node : Node} (h : Sound d session)
    (hn : d.resolve reference = .ok node) : Sound d { known := (reference, node) :: session.known } := by
  intro other node' found
  rw [List.lookup_cons] at found
  split at found
  case h_1 same =>
    cases found
    rw [eq_of_beq same, hn]
  case h_2 => exact h found

namespace Agrees

theorem pure (a : α) : Agrees d (pure a) (pure a) :=
  fun session sound => ⟨session, sound, rfl⟩

theorem throw (e : ResolveError) : Agrees d (throw e : ExceptT ResolveError Query α) (throw e) :=
  fun session sound => ⟨session, sound, rfl⟩

theorem bind {x : ExceptT ResolveError Query α} {y : ExceptT ResolveError Id α}
    {f : α → ExceptT ResolveError Query β} {g : α → ExceptT ResolveError Id β} (h : Agrees d x y)
    (hf : ∀ a, Agrees d (f a) (g a)) : Agrees d (x >>= f) (y >>= g) := by
  intro session sound
  obtain ⟨later, sound, run⟩ := h session sound
  rw [ExceptT.run_bind, run_bind, run]
  change Except ResolveError α at y
  cases y with
  | error e => exact ⟨later, sound, rfl⟩
  | ok a => exact hf a later sound

-- Only a reference that is new and leads somewhere is remembered.
theorem look (reference : String) : Agrees d (look d reference) (d.look reference) := by
  intro session sound
  have run_get (f : Session → ExceptT ResolveError Query Node) :
      (get >>= f).run.run session = (f session).run.run session := rfl
  have plain : d.look reference = .mk (d.resolve reference) := rfl
  rw [Session.look, run_get, plain]
  cases known : session.known.lookup reference with
  | some node => exact ⟨session, sound, by rw [sound known]; rfl⟩
  | none =>
    cases resolved : d.resolve reference with
    | error e => exact ⟨session, sound, rfl⟩
    | ok node => exact ⟨_, sound.remember resolved, rfl⟩

-- A chain that breaks has looked up some of its references, which does no harm.
theorem follow (target : Target α) (steps : Nat) (seen : List String) (current : String) :
    Agrees d (follow (Session.look d) target seen current steps) (follow d.look target seen current steps) := by
  induction steps generalizing seen current with
  | zero => exact throw _
  | succ steps ih =>
    refine (look current).bind fun node => ?_
    split
    case h_1 => exact pure _
    case h_2 =>
      split
      case h_1 =>
        split
        case isTrue => exact throw _
        case isFalse => exact ih _ _
      case h_2 => exact throw _

theorem destination (target : Target α) (steps : Nat) (reference : String) :
    Agrees d (Reference.destination (Session.look d) target steps reference)
      (Reference.destination d.look target steps reference) :=
  follow target steps [] reference

theorem unwrap (steps fuel : Nat) (seen : List String) (reference : String) :
    Agrees d (unwrap (Session.look d) steps seen reference fuel) (unwrap d.look steps seen reference fuel) := by
  induction fuel generalizing seen reference with
  | zero => exact throw _
  | succ fuel ih =>
    refine (destination .schema steps reference).bind fun (terminal, s) => ?_
    dsimp only
    split
    case h_1 => exact pure _
    case h_2 =>
      split
      case isTrue => exact throw _
      case isFalse => exact ih _ _

theorem ask (steps : Nat) (question : Question) :
    Agrees d (ask (Session.look d) steps question) (ask d.look steps question) := by
  cases question with
  | node reference => exact (look reference).bind fun _ => pure _
  | meantSchema reference => exact (unwrap steps (steps + 1) [] reference).bind fun _ => pure _
  | schema reference | response reference | parameter reference | requestBody reference =>
    exact (destination _ steps reference).bind fun _ => pure _

end Agrees

variable {session : Session}

theorem answer_run (sound : Sound d session) (question : Question) :
    ∃ later, Sound d later ∧ (answer d question).run session = (d.answer question, later) :=
  Agrees.ask d.maxSteps question session sound

-- After each answer the session is as sound as it was before.
theorem answers_run (sound : Sound d session) (questions : List Question) :
    ∃ later, Sound d later ∧ (answers d questions).run session = (questions.map d.answer, later) := by
  induction questions generalizing session with
  | nil => exact ⟨session, sound, rfl⟩
  | cons question rest ih =>
    obtain ⟨later, sound, first⟩ := answer_run sound question
    obtain ⟨latest, sound, others⟩ := ih sound
    refine ⟨latest, sound, ?_⟩
    rw [answers] at others
    rw [answers, List.mapM_cons, run_bind, first, run_bind, others]
    rfl

-- Whatever is asked, in whatever order, each answer is that of a session that is asked nothing else, and this is the
-- answer of the document.
theorem answers_eq_fresh (d : Document) (questions : List Question) :
    ((answers d questions).run {}).1 = questions.map (fun question => ((answer d question).run {}).1) ∧
      ∀ question, ((answer d question).run {}).1 = d.answer question := by
  have fresh (question : Question) : ((answer d question).run {}).1 = d.answer question := by
    obtain ⟨_, _, run⟩ := answer_run (d := d) sound_empty question
    rw [run]
  obtain ⟨_, _, run⟩ := answers_run (d := d) sound_empty questions
  refine ⟨?_, fresh⟩
  rw [run]
  exact List.map_congr_left fun question _ => (fresh question).symm

end Reference.Session

end OpenApiClient
