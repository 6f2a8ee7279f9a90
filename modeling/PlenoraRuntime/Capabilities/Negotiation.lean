import PlenoraRuntime.Capabilities.Discovery
import PlenoraRuntime.Foundation.Machine
import PlenoraRuntime.Messaging.Message

/-!
# Runtime negotiation

A request travels with the binding its sender requires. The first hop that accepts the
request writes this context to an acceptance store, and every later hop compares what it
received with the record. The store is the application's, so it is given here by its
contract (`AcceptanceStore`): one atomic lookup-or-create per message identity.

Receptions are concurrent calls of `accept_runtime_request`. Such a call reaches shared
state once, when it asks the store, so an interleaving is an order of these accesses
(`Receptions.machine`). Everything below follows from what one access can do to the
record of one message (`Served.Lawful`): a record appears at most once, and no answer
contradicts it.
-/

namespace PlenoraRuntime.Capabilities

open Messaging Transition List

/-! ## The context -/

inductive RuntimeBinding
  | v1
  | v2
  deriving DecidableEq, Repr

structure NegotiationContext where
  requires : RuntimeBinding
  acceptsDowngrade : Bool
  deriving DecidableEq, Repr

/-- `NegotiationError`: a refusal without data. -/
inductive NegotiationError
  | refused
  deriving DecidableEq, Repr

/-! ## Destinations -/

/-- The contract and version pairs that `runtime_capability` supports. -/
def CapabilityInterface.isRuntimeBinding (interface : CapabilityInterface) : Bool :=
  (interface.contract.value == utf8 "plenora-runtime-binding-v1" && interface.version == 1) ||
    (interface.contract.value == utf8 "plenora-runtime-binding-v2" && interface.version == 2)

def CapabilityDiscovery.runtimeCapability (discovery : CapabilityDiscovery) :
    Except CapabilityDiscoveryErrorKind CapabilityId :=
  match discovery.interfaces.filter (·.kind == .runtime) with
  | [] => .error .missingRuntimeInterface
  | _ :: _ :: _ => .error .duplicateRuntimeInterface
  | [interface] =>
    if !interface.isRuntimeBinding then .error .unsupportedRuntimeBinding
    else
      match interface.artifact with
      | none => .error .missingRuntimeArtifact
      | some artifact =>
        match CapabilityId.new artifact 1 with
        | .error _ => .error .invalidRuntimeCapability
        | .ok capability => .ok capability

def selectRuntimeDestination (context : NegotiationContext)
    (destination : Option CapabilityDiscovery) : Except NegotiationError RuntimeBinding :=
  match destination with
  | none => .error .refused
  | some destination =>
    match destination.runtimeCapability with
    | .error _ => .error .refused
    | .ok _ =>
      match destination.interfaces.find? (·.kind == .runtime) with
      | none => .error .refused
      | some interface =>
        if interface.version = 2 then .ok .v2
        else if interface.version = 1 ∧
            (context.requires = .v1 ∨ context.acceptsDowngrade = true) then
          .ok .v1
        else .error .refused

/-- The older binding is selected only for a context that allows it. -/
theorem allows_of_selectRuntimeDestination {context destination}
    (h : selectRuntimeDestination context destination = .ok .v1) :
    context.requires = .v1 ∨ context.acceptsDowngrade = true := by
  unfold selectRuntimeDestination at h
  split at h
  · simp at h
  · split at h
    · simp at h
    · split at h
      · simp at h
      · split_ifs at h with hnewer hallowed
        · simp at h
        · exact hallowed.2

/-! ## Acceptance -/

inductive AcceptanceRecord
  | created
  | existing (fixed : NegotiationContext)
  deriving DecidableEq, Repr

/-- What the store may do with the record of the message it is asked about: the record
before, the proposed context, the answer and the record after. A refused write may
have happened. -/
inductive LookupOrCreate : Option NegotiationContext → Option NegotiationContext →
    Except NegotiationError AcceptanceRecord → Option NegotiationContext → Prop
  | found {fixed proposed} :
      LookupOrCreate (some fixed) proposed (.ok (.existing fixed)) (some fixed)
  | created {context} : LookupOrCreate none (some context) (.ok .created) (some context)
  | refused {before proposed} : LookupOrCreate before proposed (.error .refused) before
  | unconfirmed {context} : LookupOrCreate none (some context) (.error .refused) (some context)

/-- A durable store with states `σ`, in which `ε` stands for what else an answer depends
on: failures, delays, the retention of records. -/
structure AcceptanceStore (σ ε : Type*) where
  accept : σ → ε → MessageId → Option NegotiationContext →
    Except NegotiationError AcceptanceRecord × σ
  record : σ → MessageId → Option NegotiationContext
  lookupOrCreate : ∀ s environment messageId proposed,
    LookupOrCreate (record s messageId) proposed (accept s environment messageId proposed).1
      (record (accept s environment messageId proposed).2 messageId)
  others : ∀ s environment messageId proposed other, other ≠ messageId →
    record (accept s environment messageId proposed).2 other = record s other

/-- The arguments of `accept_runtime_request`. -/
structure Reception where
  messageId : MessageId
  received : Option NegotiationContext
  external : Bool
  minimum : RuntimeBinding
  carriesContext : Bool
  deriving DecidableEq

namespace Reception

variable (reception : Reception)

def candidate : NegotiationContext :=
  reception.received.getD ⟨.v1, false⟩

def MeetsMinimum : Prop :=
  reception.minimum = .v1 ∨ reception.candidate.requires = .v2

instance : Decidable reception.MeetsMinimum :=
  inferInstanceAs (Decidable (_ ∨ _))

def mayCreate : Bool :=
  reception.external && decide reception.MeetsMinimum

/-- `may_create.then_some(candidate)`. -/
def proposed : Option NegotiationContext :=
  if reception.mayCreate then some reception.candidate else none

def conclude : Except NegotiationError AcceptanceRecord →
    Except NegotiationError NegotiationContext
  | .error error => .error error
  | .ok .created => if reception.mayCreate then .ok reception.candidate else .error .refused
  | .ok (.existing fixed) =>
    if reception.received = some fixed then .ok fixed else .error .refused

end Reception

variable {σ ε : Type*}

/-- `accept_runtime_request`, with the store's state. -/
def acceptRuntimeRequest (store : AcceptanceStore σ ε) (s : σ) (environment : ε)
    (reception : Reception) : Except NegotiationError NegotiationContext × σ :=
  if !reception.carriesContext then (.error .refused, s)
  else
    let (answer, s') := store.accept s environment reception.messageId reception.proposed
    (reception.conclude answer, s')

/-! ## Concurrent receptions -/

/-- A call that has returned, with the record of its message before and after. -/
structure Served where
  reception : Reception
  before : Option NegotiationContext
  result : Except NegotiationError NegotiationContext
  after : Option NegotiationContext

def Served.Creates (served : Served) : Prop :=
  served.before = none ∧ served.after ≠ none

namespace Receptions

/-- The store, and the calls that have not reached it. -/
structure State (σ : Type*) where
  store : σ
  calls : List Reception

inductive Action (ε : Type*)
  | begins (reception : Reception)
  | returns (index : ℕ) (environment : ε)

/-- Concurrent calls of `accept_runtime_request`. -/
def machine (store : AcceptanceStore σ ε) : Machine (State σ) (Action ε) Served where
  step s
    | .begins reception => some ({ s with calls := s.calls ++ [reception] }, [])
    | .returns index environment =>
      s.calls[index]?.map fun reception =>
        let (result, next) := acceptRuntimeRequest store s.store environment reception
        ({ store := next, calls := s.calls.eraseIdx index },
          [{ reception
             before := store.record s.store reception.messageId
             result
             after := store.record next reception.messageId }])

end Receptions

/-! ## What one call can do -/

/-- What a call and the record of its message have to do with each other. -/
inductive Served.Lawful : Served → Prop
  | refused {reception record} : Lawful ⟨reception, record, .error .refused, record⟩
  | found {reception fixed} (hrecv : reception.received = some fixed) :
      Lawful ⟨reception, some fixed, .ok fixed, some fixed⟩
  | created {reception} (hext : reception.external = true)
      (hminimum : reception.MeetsMinimum) :
      Lawful ⟨reception, none, .ok reception.candidate, some reception.candidate⟩
  | unconfirmed {reception} (hext : reception.external = true)
      (hminimum : reception.MeetsMinimum) :
      Lawful ⟨reception, none, .error .refused, some reception.candidate⟩

/-- A call that creates a record is an ingress. -/
theorem Served.Lawful.ingress {served : Served} {context} (h : served.Lawful)
    (hpre : served.before = none) (hafter : served.after = some context) :
    served.reception.candidate = context ∧ served.reception.external = true ∧
      served.reception.MeetsMinimum ∧
      ∀ accepted, served.result = .ok accepted → accepted = context := by
  cases h with
  | refused => exact absurd (hpre.symm.trans hafter) (by simp)
  | found => exact absurd hpre (by simp)
  | created hext hminimum =>
    have hcand := Option.some.inj hafter
    exact ⟨hcand, hext, hminimum, fun accepted hacc =>
      (Except.ok.inj hacc).symm.trans hcand⟩
  | unconfirmed hext hminimum =>
    exact ⟨Option.some.inj hafter, hext, hminimum, by simp⟩

theorem Reception.proposed_eq_some_iff {reception : Reception} {context} :
    reception.proposed = some context ↔
      (reception.external = true ∧ reception.MeetsMinimum) ∧ reception.candidate = context := by
  simp [Reception.proposed, Reception.mayCreate]

theorem lawful_acceptRuntimeRequest (store : AcceptanceStore σ ε) (s : σ) (environment : ε)
    (reception : Reception) :
    Served.Lawful
      { reception
        before := store.record s reception.messageId
        result := (acceptRuntimeRequest store s environment reception).1
        after := store.record (acceptRuntimeRequest store s environment reception).2
          reception.messageId } := by
  unfold acceptRuntimeRequest
  split_ifs with hcarries
  · exact .refused
  have hstore := store.lookupOrCreate s environment reception.messageId reception.proposed
  generalize store.accept s environment reception.messageId reception.proposed = answered
    at hstore ⊢
  obtain ⟨answer, next⟩ := answered
  generalize store.record s reception.messageId = before at hstore ⊢
  generalize store.record next reception.messageId = after at hstore ⊢
  generalize hproposed : reception.proposed = proposed at hstore
  cases hstore with
  | found =>
    simp only [Reception.conclude]
    split_ifs with hrecv
    · exact .found hrecv
    · exact .refused
  | refused => exact .refused
  | created =>
    obtain ⟨⟨hext, hminimum⟩, rfl⟩ := Reception.proposed_eq_some_iff.mp hproposed
    have hmay : reception.mayCreate = true := by simp [Reception.mayCreate, hext, hminimum]
    simp only [Reception.conclude, hmay]
    exact .created hext hminimum
  | unconfirmed =>
    obtain ⟨⟨hext, hminimum⟩, rfl⟩ := Reception.proposed_eq_some_iff.mp hproposed
    exact .unconfirmed hext hminimum

theorem record_acceptRuntimeRequest_of_ne (store : AcceptanceStore σ ε) (s : σ) (environment : ε)
    {reception : Reception} {other} (h : other ≠ reception.messageId) :
    store.record (acceptRuntimeRequest store s environment reception).2 other =
      store.record s other := by
  unfold acceptRuntimeRequest
  split_ifs with hcarries
  · rfl
  · exact store.others s environment reception.messageId reception.proposed other h

/-! ## What a run can do -/

namespace Receptions

variable {store : AcceptanceStore σ ε} {messageId : MessageId} {events : List Served}
  {s' s : State σ}

/-- What is known of one message after some calls: none of them was accepted, or one of
them created the record and none contradicts it. -/
inductive Settled (messageId : MessageId) : Option NegotiationContext → List Served → Prop
  | pending {served} (hrefused : ∀ call ∈ served, call.reception.messageId = messageId →
        ¬ call.Creates ∧ call.result = .error .refused) :
      Settled messageId none served
  | fixed {creator : Served} {earlier later context}
      (hmsg : creator.reception.messageId = messageId) (hlawful : creator.Lawful)
      (hpre : creator.before = none) (hafter : creator.after = some context)
      (hearlier : ∀ call ∈ earlier, call.reception.messageId = messageId →
        ¬ call.Creates ∧ call.result = .error .refused)
      (hlater : ∀ call ∈ later, call.reception.messageId = messageId →
        ¬ call.Creates ∧ (call.result = .error .refused ∨
          call.result = .ok context ∧ call.reception.received = some context)) :
      Settled messageId (some context) (earlier ++ creator :: later)

theorem Settled.skip {record served} {call : Served} (h : Settled messageId record served)
    (hother : call.reception.messageId ≠ messageId) :
    Settled messageId record (served ++ [call]) := by
  cases h with
  | pending hrefused =>
    exact .pending (forall_mem_concat hrefused fun hmsg => absurd hmsg hother)
  | fixed hmsg hlawful hpre hafter hearlier hlater =>
    rw [append_assoc]
    exact .fixed hmsg hlawful hpre hafter hearlier
      (forall_mem_concat hlater fun hsame => absurd hsame hother)

/-- A call about the message takes its record from one settled state to the next. -/
theorem Settled.serve {served} {call : Served} (h : Settled messageId call.before served)
    (hcall : call.Lawful) (hmsg : call.reception.messageId = messageId) :
    Settled messageId call.after (served ++ [call]) := by
  obtain ⟨reception, before, result, after⟩ := call
  cases h with
  | pending hrefused =>
    cases hcall with
    | refused =>
      exact .pending (forall_mem_concat hrefused fun _ => ⟨fun hcreates => hcreates.2 rfl, rfl⟩)
    | created hext hminimum =>
      exact .fixed hmsg (.created hext hminimum) rfl rfl hrefused (by simp)
    | unconfirmed hext hminimum =>
      exact .fixed hmsg (.unconfirmed hext hminimum) rfl rfl hrefused (by simp)
  | fixed hcreator hlawful hpre hafter hearlier hlater =>
    rw [append_assoc]
    -- The record is there, so the call is refused or agrees with it.
    cases hcall with
    | refused =>
      exact .fixed hcreator hlawful hpre hafter hearlier
        (forall_mem_concat hlater fun _ => ⟨by simp [Served.Creates], .inl rfl⟩)
    | found hrecv =>
      exact .fixed hcreator hlawful hpre hafter hearlier
        (forall_mem_concat hlater fun _ => ⟨by simp [Served.Creates], .inr ⟨rfl, hrecv⟩⟩)

theorem settled_step {past action} (h : Settled messageId (store.record s.store messageId) past)
    (hstep : (machine store).step s action = some (s', events)) :
    Settled messageId (store.record s'.store messageId) (past ++ events) := by
  cases action with
  | begins reception =>
    cases hstep
    simpa using h
  | returns index environment =>
    obtain ⟨reception, -, hret⟩ := Option.map_eq_some_iff.mp hstep
    cases hret
    by_cases hmsg : reception.messageId = messageId
    · subst hmsg
      exact h.serve (lawful_acceptRuntimeRequest store s.store environment reception) rfl
    · rw [← record_acceptRuntimeRequest_of_ne store s.store environment (Ne.symm hmsg)] at h
      exact h.skip hmsg

theorem settled_run {actions} (hrun : (machine store).run s actions = some (s', events))
    (hnew : store.record s.store messageId = none) :
    Settled messageId (store.record s'.store messageId) events := by
  have hstart : Settled messageId (store.record s.store messageId) [] := by
    rw [hnew]
    exact .pending (by simp)
  exact Runs.history (I := fun s past => Settled messageId (store.record s.store messageId) past)
    (fun h ⟨_, hstep⟩ => settled_step h hstep) [] (Machine.runs_of_run hrun) hstart

end Receptions

/-- Over every interleaving of receptions, what is accepted of a message is the context
that one call wrote when it created the record; that call was an ingress which met its
minimum, and a call that comes later without this context is refused. A context that
requires the newer binding and no less is never given the older one. -/
theorem context_fixed_at_first_acceptance {store : AcceptanceStore σ ε} {messageId : MessageId}
    {s s' : Receptions.State σ} {actions : List (Receptions.Action ε)} {events : List Served}
    (hnew : store.record s.store messageId = none)
    (hrun : (Receptions.machine store).run s actions = some (s', events)) :
    (store.record s'.store messageId = none ∧
      ∀ call ∈ events, call.reception.messageId = messageId → call.result = .error .refused) ∨
    ∃ earlier creator later context, events = earlier ++ creator :: later ∧
      creator.reception.messageId = messageId ∧ creator.Creates ∧
      creator.after = some context ∧ creator.reception.candidate = context ∧
      creator.reception.external = true ∧ creator.reception.MeetsMinimum ∧
      store.record s'.store messageId = some context ∧
      (∀ call ∈ earlier ++ later, call.reception.messageId = messageId → ¬ call.Creates) ∧
      (∀ call ∈ later, call.reception.messageId = messageId →
        call.reception.received ≠ some context → call.result = .error .refused) ∧
      ∀ call ∈ events, call.reception.messageId = messageId →
        ∀ accepted, call.result = .ok accepted → accepted = context ∧
          (context.requires = .v2 → context.acceptsDowngrade = false →
            ∀ destination, selectRuntimeDestination accepted destination ≠ .ok .v1) := by
  have hsettled := Receptions.settled_run hrun hnew
  generalize store.record s'.store messageId = record at hsettled ⊢
  cases hsettled with
  | pending hrefused => exact .inl ⟨rfl, fun call hmem hmessage => (hrefused call hmem hmessage).2⟩
  | @fixed creator earlier later context hmessage hlawful hbefore hafter hearlier hlater =>
    have hcreates : creator.Creates := ⟨hbefore, by simp [hafter]⟩
    obtain ⟨hcandidate, hexternal, hminimum, hresult⟩ := hlawful.ingress hbefore hafter
    -- Whoever is accepted is accepted with what the creator has fixed.
    have hsame : ∀ call ∈ earlier ++ creator :: later, call.reception.messageId = messageId →
        ∀ accepted, call.result = .ok accepted → accepted = context := by
      intro call hmem hcall accepted haccepted
      rcases List.mem_append.mp hmem with hmem | hmem
      · simp [(hearlier call hmem hcall).2] at haccepted
      rcases List.mem_cons.mp hmem with rfl | hmem
      · exact hresult accepted haccepted
      · rcases (hlater call hmem hcall).2 with hrefused | ⟨hok, -⟩
        · simp [hrefused] at haccepted
        · simpa [hok, eq_comm] using haccepted
    refine .inr ⟨earlier, creator, later, context, rfl, hmessage, hcreates, hafter, hcandidate,
      hexternal, hminimum, rfl, ?_, ?_, ?_⟩
    · -- No other call creates the record.
      intro call hmem hcall
      rcases List.mem_append.mp hmem with hmem | hmem
      · exact (hearlier call hmem hcall).1
      · exact (hlater call hmem hcall).1
    · -- A call that received another context is refused.
      intro call hmem hcall hreceived
      rcases (hlater call hmem hcall).2 with hrefused | ⟨-, hagrees⟩
      · exact hrefused
      · exact absurd hagrees hreceived
    · -- No destination is chosen against the terms of the context.
      intro call hmem hcall accepted haccepted
      obtain rfl := hsame call hmem hcall accepted haccepted
      refine ⟨rfl, fun hrequires hdowngrade destination hselected => ?_⟩
      rcases allows_of_selectRuntimeDestination hselected with hallowed | hallowed
      · simp [hrequires] at hallowed
      · simp [hdowngrade] at hallowed

def Sample.acceptanceStore : AcceptanceStore (MessageId → Option NegotiationContext) Unit where
  accept s _ messageId proposed :=
    match s messageId, proposed with
    | some fixed, _ => (.ok (.existing fixed), s)
    | none, some context => (.ok .created, Function.update s messageId (some context))
    | none, none => (.error .refused, s)
  record s messageId := s messageId
  lookupOrCreate s _ messageId proposed := by
    split
    · next fixed hfound =>
        simp only [hfound]
        exact .found
    · next hnone =>
        simp only [hnone, Function.update_self]
        exact .created
    · next hnone =>
        simp only [hnone]
        exact .refused
  others s _ messageId proposed other hother := by
    split
    · rfl
    · exact Function.update_of_ne hother _ _
    · rfl

/-- Two hops receive a message with a strict context, and a third has lost it. -/
theorem context_fixed_at_first_acceptance_forwarded :
    let strict : NegotiationContext := ⟨.v2, false⟩
    let actions : List (Receptions.Action Unit) :=
      [.begins ⟨⟨1⟩, some strict, true, .v2, true⟩, .begins ⟨⟨1⟩, some strict, false, .v1, true⟩,
        .begins ⟨⟨1⟩, none, true, .v1, true⟩, .returns 0 (), .returns 0 (), .returns 0 ()]
    let last := (Receptions.machine Sample.acceptanceStore).after ⟨fun _ => none, []⟩ actions
    last.2.map (·.result) = [.ok strict, .ok strict, .error .refused] ∧
      ∃ creator ∈ last.2, creator.Creates ∧ creator.reception.candidate = strict := by
  intro strict actions last
  have hresults : last.2.map (·.result) = [.ok strict, .ok strict, .error .refused] := by
    decide +kernel
  have hsome : ((Receptions.machine Sample.acceptanceStore).run ⟨fun _ => none, []⟩
      actions).isSome = true := by decide +kernel
  have hrecord : last.1.store ⟨1⟩ = some strict := by decide +kernel
  have hnew : Sample.acceptanceStore.record (fun _ => none) ⟨1⟩ = none := rfl
  rcases context_fixed_at_first_acceptance hnew (Machine.run_eq_after hsome) with ⟨hnone, -⟩ |
    ⟨earlier, creator, later, context, hevents, -, hcreates, -, hcandidate, -, -, hlast, -⟩
  · exact absurd (hrecord.symm.trans hnone) (by simp)
  · refine ⟨hresults, creator, ?_, hcreates, ?_⟩
    · rw [show last.2 = earlier ++ creator :: later from hevents]
      simp
    · rw [hcandidate]
      exact Option.some.inj (hlast.symm.trans hrecord)

end PlenoraRuntime.Capabilities
