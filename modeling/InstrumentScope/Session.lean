import InstrumentScope.Fleet
import InstrumentScope.Transcript

/-!
Contract: a whole session, from writing settings to running code.

Rules are gathered first, by registering them or by loading entries. The
session then goes live, either with the rules gathered or with those that the
settings describe, and may go live again. Paths and the transcript outlast every
change of policy. A command that makes no sense yet, or no longer, is refused.

Owns:
- the state of a session, its commands and its replies.
-/

namespace InstrumentScope

/-- A policy in force, the monitor that follows it, and the searches through its rules so far. -/
structure Live where
  policy : Policy
  monitor : Monitor
  scans : Nat

structure Session where
  store : Store
  catalog : Catalog
  /-- The rules gathered for going live, and the searches through them so far. -/
  gathered : RuleSet
  gatheredScans : Nat
  live : Option Live
  paths : Paths
  transcript : Transcript
  /-- The receiver of marks takes checks as well as signals. -/
  takesChecks : Bool

inductive Command where
  | set (key : String) (value : Setting)
  | addSelection (selection : Selection)
  /-- Read a key as each of the three types. -/
  | read (key : String)
  | joinKey (owner word : String)
  | addImage (module : String) (image : Image)
  | register (source : RuleSource)
  | loadEntry (entry : String)
  /-- Go live with the rules gathered. -/
  | goLive (options : Options)
  /-- Go live with the rules that the settings describe. Workers have a task for each entry. -/
  | loadPolicy (options : Options)
  /-- Forget the open block and all complaints. -/
  | renewMonitor
  | showRules
  | findRule (name : String)
  | showRule (name : String)
  | rulesFor (module : String)
  /-- Find the rule that governs a mapping, by a search of its own. -/
  | resolve (mapping : Mapping)
  | showFootprint (module : String)
  /-- Look up offsets in the footprint of a module. -/
  | lookUpFootprint (module : String) (offsets : List UInt64)
  | signalsFor (block : BlockId)
  | clearTranscript
  | showCached (path : String) (mapping : Mapping)
  | perform (events : List Event)

inductive Reply where
  | done
  | flag (value : Bool)
  | text (value : String)
  | names (value : Option (List String))
  | settings (text : Option String) (spans : Option (List OffsetSpan))
      (names : Option (List String))
  | registered (outcome : Except Fault RuleId)
  | policy (policy : Policy)
  | rules (rules : RuleSet)
  | rule (rule : Option Rule)
  | ids (ids : List RuleId)
  | found (id : Option RuleId)
  | footprint (selected : Bool) (footprint : Option Footprint)
  | flags (values : Option (List Bool))
  | signals (signals : List SignalMark)
  | cached (knowledge : Option (Option RuleId))
  | answers (answers : List Answer)

namespace Session

def fresh (catalog : Catalog) (takesChecks : Bool) : Session where
  store := .empty
  catalog
  gathered := .empty
  gatheredScans := 0
  live := none
  paths := .empty
  transcript := .empty
  takesChecks

/-- The rules in use: those of the policy in force, else those gathered so far. -/
def rules (session : Session) : RuleSet :=
  match session.live with
  | some live => live.policy.rules
  | none => session.gathered

def scans (session : Session) : Nat :=
  match session.live with
  | some live => live.scans
  | none => session.gatheredScans

/-- Counts searches through the rules in use. -/
def addScans (session : Session) (scans : Nat) : Session :=
  match session.live with
  | some live => { session with live := some { live with scans := live.scans + scans } }
  | none => { session with gatheredScans := session.gatheredScans + scans }

/-- The reply to a command, the session afterwards, and what was said and received meanwhile. -/
structure Report where
  reply : Reply
  session : Session
  notices : List Notice
  received : Transcript

/-- A command that changes the session and says nothing. -/
def Report.quiet (reply : Reply) (session : Session) : Report :=
  ⟨reply, session, [], .empty⟩

/-- The transcript that the session's receiver keeps of some marks. -/
def receive (session : Session) (marks : List Mark) : Transcript :=
  let transcript := Transcript.ofMarks marks
  if session.takesChecks then transcript else transcript.withoutChecks

/-- Puts a policy in force, with a fresh monitor. -/
def enforce (session : Session) (policy : Policy) (scans : Nat) : Session :=
  { session with live := some ⟨policy, .fresh, scans⟩ }

/-- Performs events under the policy in force. -/
def performLive (session : Session) (live : Live) (events : List Event) : Report :=
  let run := Fleet.run live.policy ⟨live.monitor, session.paths⟩ events
  let received := session.receive run.effects.marks
  { reply := .answers run.answers
    session := { session with
      live := some { live with
        monitor := run.fleet.monitor
        scans := live.scans + run.effects.scans }
      paths := run.fleet.paths
      transcript := session.transcript.append received }
    notices := run.effects.notices
    received }

/-- Performs events on the rules gathered so far. Only events that concern paths alone make sense
before a policy is in force. -/
def performGathering (session : Session) : List Event → Option (List Answer × Session)
  | [] => some ([], session)
  | .onPaths event :: rest => do
      let outcome := session.paths.step session.gathered event
      let (answers, later) ← performGathering
        { session with
          paths := outcome.paths
          gatheredScans := session.gatheredScans + outcome.scans } rest
      return (outcome.answer :: answers, later)
  | _ :: _ => none

/-- Registers the outcome of compiling a source. -/
def registerSource (session : Session) (source : RuleSource) : Report :=
  let registration := session.gathered.settle source.compile
  .quiet (.registered registration.answer) { session with gathered := registration.rules }

/-- Carries out a command, or refuses it. -/
def step (session : Session) : Command → Option Report
  | .set key value =>
      some (.quiet .done { session with store := session.store.set key value })
  | .addSelection selection =>
      let store := session.store.addSelection selection
      some (.quiet (.names (store.names? (Store.key Store.defaultRoot .selections)))
        { session with store })
  | .read key =>
      some (.quiet
        (.settings (session.store.text? key) (session.store.spans? key) (session.store.names? key))
        session)
  | .joinKey owner word => some (.quiet (.text (Store.joinKey owner word)) session)
  | .addImage module image =>
      some (.quiet .done { session with catalog := session.catalog.insert module image })
  | .register source =>
      if session.live.isSome then none else some (session.registerSource source)
  | .loadEntry entry =>
      if session.live.isSome then none
      else
        let enrollment := session.gathered.load session.store session.catalog entry
        some {
          reply := .flag enrollment.enrolled
          session := { session with gathered := enrollment.rules }
          notices := [enrollment.notice]
          received := .empty }
  | .goLive options =>
      let policy := Policy.ofRules session.gathered options
      let emptied := { session with gathered := .empty, gatheredScans := 0 }
      some (.quiet (.policy policy) (emptied.enforce policy session.gatheredScans))
  | .loadPolicy options =>
      let loaded := Policy.load .tasks session.store session.catalog options
      some {
        reply := .policy loaded.policy
        session := session.enforce loaded.policy 0
        notices := loaded.notices
        received := .empty }
  | .renewMonitor =>
      session.live.map fun live =>
        .quiet .done { session with live := some { live with monitor := .fresh } }
  | .showRules => some (.quiet (.rules session.rules) session)
  | .findRule name => some (.quiet (.found (session.rules.find? name)) session)
  | .showRule name =>
      some (.quiet (.rule ((session.rules.find? name).bind session.rules.get?)) session)
  | .rulesFor module => some (.quiet (.ids (session.rules.forModule module)) session)
  | .resolve mapping =>
      let found := session.rules.search mapping
      some (.quiet (.found found.rule) (session.addScans found.scans))
  | .showFootprint module =>
      session.live.map fun live =>
        let coverage := live.policy.coverage
        .quiet (.footprint (coverage.isSelected module) (coverage.footprint? module)) session
  | .lookUpFootprint module offsets =>
      session.live.map fun live =>
        let footprint := live.policy.coverage.footprint? module
        .quiet (.flags (footprint.map fun footprint => offsets.map footprint.get)) session
  | .signalsFor block => some (.quiet (.signals (session.transcript.forBlock block)) session)
  | .clearTranscript => some (.quiet .done { session with transcript := .empty })
  | .showCached path mapping =>
      some (.quiet (.cached ((session.paths.get path).cached mapping)) session)
  | .perform events =>
      match session.live with
      | some live => some (session.performLive live events)
      | none =>
          (session.performGathering events).map fun (answers, later) =>
            .quiet (.answers answers) later

end Session

end InstrumentScope
