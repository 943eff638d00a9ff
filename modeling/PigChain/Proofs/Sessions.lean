import PigChain.Proofs.FilterRows
import PigChain.Query.Basic

/-!
# Sessions

Requests are put to queries over one source that keeps the scripts it was sent. Main statement: after any
requests the source holds one script for each request that runs a chain that compiles, in order, and each is
the text that the query shows; a request that fails to compile fails as its text does and sends nothing.
-/

namespace PigChain

/-- A source that answers every script alike and keeps the scripts, oldest first. -/
structure RecordingSource where
  name : String
  rows : List RawRow := []
  /-- Why every script fails, if it does. -/
  failure : Option String := none
  received : List String := []

def RecordingSource.answer (s : RecordingSource) : Except String (List RawRow) :=
  match s.failure with
  | some message => .error message
  | none => .ok s.rows

def RecordingSource.provider (s : RecordingSource) (options : RenderOptions) : Provider :=
  ⟨.fixed s.name s.answer, options⟩

/-- What may be asked of a query. -/
inductive Request where
  | text (q : Query)
  | textOfSingle (q : SingleQuery)
  | toList (q : Query)
  | only (q : Query)
  | get (q : SingleQuery)

/-- The text that the query of a request shows. -/
def Request.shown (p : Provider) : Request → Except QueryError String
  | .text q | .toList q | .only q => q.text p
  | .textOfSingle q | .get q => q.text p

def Request.executes : Request → Bool
  | .text _ | .textOfSingle _ => false
  | .toList _ | .only _ | .get _ => true

/-- The script that a request should send. -/
def Request.script? (p : Provider) (r : Request) : Option String :=
  if r.executes then (r.shown p).toOption else none

inductive Answer where
  | text (outcome : Except QueryError String)
  | rows (outcome : Except QueryError (List Json))
  | value (outcome : Except QueryError (Option Json))

def failureOf {α : Type} : Except QueryError α → Option QueryError
  | .error e => some e
  | .ok _ => none

def Answer.failure : Answer → Option QueryError
  | .text o => failureOf o
  | .rows o => failureOf o
  | .value o => failureOf o

namespace RecordingSource

/-- What a run answers, and the source after it. -/
def after {α : Type} (s : RecordingSource) (answer : Except QueryError α → Answer) (r : Run α) :
    Answer × RecordingSource :=
  (answer r.outcome, { s with received := s.received ++ r.sent })

def serve (options : RenderOptions) (s : RecordingSource) : Request → Answer × RecordingSource
  | .text q => (.text (q.text (s.provider options)), s)
  | .textOfSingle q => (.text (q.text (s.provider options)), s)
  | .toList q => s.after .rows (q.toList (s.provider options))
  | .only q => s.after .value (q.only (s.provider options))
  | .get q => s.after .value (q.get (s.provider options))

/-- One request after the other. -/
def serveAll (options : RenderOptions) (s : RecordingSource) : List Request → List Answer × RecordingSource
  | [] => ([], s)
  | r :: rest =>
    let first := s.serve options r
    let later := first.2.serveAll options rest
    (first.1 :: later.1, later.2)

end RecordingSource

/-! ## One run -/

section Run
variable {p : Provider} {chain : Expr}

theorem Provider.execute_of_render_error {e : QueryError} (h : p.render chain = .error e) :
    (p.execute chain).sent = [] ∧ (p.execute chain).outcome = .error e := by
  cases hc : (chain.compile p.options).outcome with
  | error cause =>
    simp only [Provider.render, hc] at h
    cases h
    simp [Provider.execute, hc]
  | ok c =>
    simp only [Provider.render, hc] at h
    cases h

theorem Provider.execute_of_render_ok {text : String} (h : p.render chain = .ok text) :
    (p.execute chain).sent = [text] ∧
      ∀ message, (p.source.answer text).outcome = .error message →
        (p.execute chain).outcome = .error (.executor message) := by
  cases hc : (chain.compile p.options).outcome with
  | error cause =>
    simp only [Provider.render, hc] at h
    cases h
  | ok c =>
    simp only [Provider.render, hc] at h
    cases h
    cases ha : (p.source.answer c.text).outcome <;> simp [Provider.execute, hc, ha]

theorem Provider.sent_execute (p : Provider) (chain : Expr) :
    (p.execute chain).sent = (p.render chain).toOption.toList := by
  cases h : p.render chain with
  | error e => exact (Provider.execute_of_render_error h).1
  | ok text => exact (Provider.execute_of_render_ok h).1

theorem Run.failureOf_andThen {α β : Type} {r : Run α} {e : QueryError} (f : α → Except QueryError β)
    (h : r.outcome = .error e) : failureOf (r.andThen f).outcome = some e := by
  simp [Run.andThen, h, Except.bind, failureOf]

end Run

/-! ## One request -/

/-- How an answer goes with its request. -/
structure Request.Answered (p : Provider) (failure : Option String) (r : Request) (a : Answer) : Prop where
  shows : r.executes = false → a = .text (r.shown p)
  /-- What does not compile fails as its text does. -/
  refuses : ∀ e, r.shown p = .error e → a.failure = some e
  /-- A failing source fails every request that runs. -/
  passes : ∀ message script, failure = some message → r.script? p = some script →
    a.failure = some (.executor message)

theorem Request.Answered.ofText {p : Provider} {failure : Option String} {r : Request}
    (hr : r.executes = false) : r.Answered p failure (.text (r.shown p)) where
  shows _ := rfl
  refuses e he := by simp [Answer.failure, failureOf, he]
  passes message script _ hscript := by simp [Request.script?, hr] at hscript

namespace RecordingSource

/-- The source after it got more scripts. -/
def receive (s : RecordingSource) (scripts : List String) : RecordingSource :=
  { s with received := s.received ++ scripts }

theorem receive_nil (s : RecordingSource) : s.receive [] = s := by
  simp [receive]

theorem provider_receive (s : RecordingSource) (scripts : List String) (options : RenderOptions) :
    (s.receive scripts).provider options = s.provider options := rfl

theorem answer_of_failure {s : RecordingSource} {message : String} (h : s.failure = some message)
    (options : RenderOptions) (script : String) :
    ((s.provider options).source.answer script).outcome = .error message := by
  simp [provider, DataSource.fixed, answer, h, Traced.silent]

section Step
variable (options : RenderOptions) (s : RecordingSource)

/-- A request that runs a chain and works on its outcome. -/
theorem after_andThen {α : Type} (f : QueryResult → Except QueryError α) (answer : Except QueryError α → Answer)
    (hanswer : ∀ o, (answer o).failure = failureOf o) {r : Request} (hr : r.executes = true) {chain : Expr}
    (hshown : r.shown (s.provider options) = (s.provider options).render chain) :
    let done := s.after answer (((s.provider options).execute chain).andThen f)
    r.Answered (s.provider options) s.failure done.1 ∧
      done.2 = s.receive (r.script? (s.provider options)).toList := by
  refine ⟨⟨fun h => ?_, fun e he => ?_, fun message script hm hscript => ?_⟩, ?_⟩
  · rw [hr] at h
    cases h
  · rw [hshown] at he
    have hout := (Provider.execute_of_render_error he).2
    simpa [after, hanswer] using Run.failureOf_andThen f hout
  · simp only [Request.script?, hr, hshown, if_true] at hscript
    cases hrender : (s.provider options).render chain with
    | error e =>
      rw [hrender] at hscript
      cases hscript
    | ok text =>
      have hout := (Provider.execute_of_render_ok hrender).2 message (answer_of_failure hm options text)
      simpa [after, hanswer] using Run.failureOf_andThen f hout
  · simp [after, receive, Run.andThen, Request.script?, hr, hshown, Provider.sent_execute]

theorem serve_spec (r : Request) :
    r.Answered (s.provider options) s.failure (s.serve options r).1 ∧
      (s.serve options r).2 = s.receive (r.script? (s.provider options)).toList := by
  cases r with
  | text q => exact ⟨.ofText rfl, (receive_nil s).symm⟩
  | textOfSingle q => exact ⟨.ofText rfl, (receive_nil s).symm⟩
  | toList q => exact after_andThen options s _ .rows (fun _ => rfl) rfl rfl
  | only q => exact after_andThen options s _ .value (fun _ => rfl) rfl rfl
  | get q => exact after_andThen options s _ .value (fun _ => rfl) rfl rfl

end Step

end RecordingSource

/-! ## Whole sessions -/

theorem sessions_send_each_script_once (options : RenderOptions) (s : RecordingSource)
    (requests : List Request) :
    (s.serveAll options requests).2 =
        { s with received := s.received ++ requests.filterMap (Request.script? (s.provider options)) } ∧
      List.Forall₂ (Request.Answered (s.provider options) s.failure) requests
        (s.serveAll options requests).1 := by
  induction requests generalizing s with
  | nil => exact ⟨by simp [RecordingSource.serveAll], .nil⟩
  | cons r rest ih =>
    obtain ⟨hanswer, hsource⟩ := s.serve_spec options r
    -- A source that got more scripts answers as before, so the rest is asked of the same provider.
    obtain ⟨hlater, hanswers⟩ := ih (s.receive (r.script? (s.provider options)).toList)
    simp only [RecordingSource.serveAll, hsource]
    refine ⟨?_, .cons hanswer hanswers⟩
    rw [hlater, RecordingSource.provider_receive]
    cases hscript : r.script? (s.provider options) <;> simp [RecordingSource.receive, hscript]

/-- People older than thirty; `column` is the field compared with thirty. -/
def olderThan30 (column : String) : Query :=
  (Query.ofSource "people" (.any personType)).filter
    (.binary .greaterThan (.get (.parameter Query.row personType) column) (.lit (.int 30)) .bool)

theorem sessions_send_each_script_once_failing :
    let s : RecordingSource := ⟨"people", [], some "down", []⟩
    let requests := [.text (olderThan30 "Age"), .toList (olderThan30 "Size"), .toList (olderThan30 "Age"),
      .get (olderThan30 "Age").count]
    (s.serveAll {} requests).2.received =
        ["A = LOAD 'people'; B = FILTER A BY Age > 30; DUMP B;",
          "A = LOAD 'people'; B = FILTER A BY Age > 30; C = GROUP B ALL; " ++
            "D = FOREACH C GENERATE COUNT(B) AS value; DUMP D;"] ∧
      (s.serveAll {} requests).1.map Answer.failure =
        [none, some (.chain (.argument (.unknownField "Size" "Person"))), some (.executor "down"),
          some (.executor "down")] := by
  refine ⟨?_, by decide +kernel⟩
  rw [(sessions_send_each_script_once _ _ _).1]
  decide +kernel

end PigChain
