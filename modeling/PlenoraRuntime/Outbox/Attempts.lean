import PlenoraRuntime.Outbox.Alone

/-!
# What the attempt counter counts

`claim_pending` adds one to the attempts of every entry it hands out. Whether the entry is
then passed to the producer is decided later, by the run that claimed it: a run that ends
early gives its remaining claims back, or leaves them, and one that is dropped does
nothing. None of this lowers the counter.

So the counter is the number of claims, which is the number of publications plus the
number of runs that claimed the entry and did not pass it on (`attempts_eq`). This holds
in every interleaving of any number of runs, at every moment. The proof follows the two
kinds of steps that matter: a claim makes a run one that has still to pass the entry on,
and its publication makes it one that has.
-/

namespace PlenoraRuntime.Outbox

open Messaging Transition List Option Function

variable {E : Type*} {store' : OutboxMemoryState} {i : ℕ}

/-! ## The counters of the store -/

namespace OutboxMemoryState

def attemptsOf (store : OutboxMemoryState) (id : OutboxId) : Option ℕ :=
  (store.find id).map fun record => record.entry.attempts

section attempts

variable {store store' : OutboxMemoryState} {id : OutboxId} {marked : Except MemoryStoreError Unit}

/-- An operation that writes every record back with its entry keeps the attempts. -/
theorem attemptsOf_congr (h : store'.entryOf = store.entryOf) :
    store'.attemptsOf = store.attemptsOf := by
  have hread : ∀ store : OutboxMemoryState,
      store.attemptsOf = fun id => (store.entryOf id).map OutboxEntry.attempts := by
    intro store
    funext id
    rw [entryOf, Option.map_map]
    rfl
  rw [hread, h, ← hread]

theorem entryOf_congr (h : store'.find = store.find) : store'.entryOf = store.entryOf := by
  funext id
  rw [entryOf, h, entryOf]

theorem entryOf_recordAnswer {policy : RelayPolicy} {answer : PublishResult E}
    (h : recordAnswer store policy id answer = (store', marked)) :
    store'.entryOf = store.entryOf := by
  rcases recordAnswer_spec h with ⟨_, _, hsame⟩ | ⟨_, _, hsame⟩ | ⟨_, hmoves⟩
  · exact entryOf_congr hsame
  · exact entryOf_congr hsame
  · exact hmoves.entries

theorem entryOf_markFailed {failure} (h : store.markFailed id failure = (store', marked)) :
    store'.entryOf = store.entryOf := by
  rcases markFailed_spec h with ⟨_, _, hsame⟩ | ⟨_, hmoves⟩
  · exact entryOf_congr hsame
  · exact hmoves.entries

/-- Claiming counts one attempt for each of the entries. -/
theorem Claims.attempts {limit : ℕ} {entries} (h : Claims store store' limit entries)
    (id : OutboxId) :
    store'.attemptsOf id =
      if id ∈ entries.map OutboxEntry.id then (store.attemptsOf id).map (saturatingAddU32 · 1)
      else store.attemptsOf id := by
  rw [attemptsOf, h.find, attemptsOf]
  split_ifs
  · cases store.find id <;> rfl
  · rfl

theorem attemptsOf_insert {entry result} (h : store.insert entry = (store', result)) :
    (∃ error, result = .error error ∧ store'.attemptsOf = store.attemptsOf) ∨
      (result = .ok () ∧ store.attemptsOf entry.id = none ∧
        store'.attemptsOf = Function.update store.attemptsOf entry.id (some entry.attempts)) := by
  rcases insert_spec h with ⟨error, herror, hsame⟩ | ⟨hok, hnew, hfind⟩
  · exact .inl ⟨error, herror, attemptsOf_congr (entryOf_congr hsame)⟩
  · exact .inr ⟨hok, congrArg (Option.map _) hnew,
      map_find_update (fun record => record.entry.attempts) hfind⟩

end attempts

end OutboxMemoryState

/-! ## What a step of a run does -/

def Event.claims (i : ℕ) (id : OutboxId) : Event E → Bool
  | .claimed j entries => j = i && (entries.map OutboxEntry.id).contains id
  | _ => false

def Event.publishes (i : ℕ) (id : OutboxId) : Event E → Bool
  | .published j entry => j = i && entry.id = id
  | _ => false

def Event.isPublication (id : OutboxId) : Event E → Bool
  | .published _ entry => entry.id = id
  | _ => false

def publications (history : List (Event E)) (id : OutboxId) : ℕ :=
  history.countP (Event.isPublication id)

def hasClaimed (history : List (Event E)) (id : OutboxId) (i : ℕ) : Bool :=
  history.any (Event.claims i id)

/-- Run `i` claimed the entry and did not pass it to its producer. -/
def skips (history : List (Event E)) (id : OutboxId) (i : ℕ) : Bool :=
  hasClaimed history id i && !history.any (Event.publishes i id)

def Event.isOther : Event E → Bool
  | .claimed _ _ | .published _ _ => false
  | _ => true

/-- What a run claimed and has still to pass to its producer. -/
def Run.unpublished (run : Run E) : List OutboxId :=
  match run.phase with
  | .looping rest | .publishing _ rest | .marking _ rest _ => rest.map OutboxEntry.id
  | .claiming | .releasing _ _ | .done => []

/-- The steps of a run, as far as attempts are concerned. -/
inductive Effect (i : ℕ) (store : OutboxMemoryState) (run : Run E) :
    List (Event E) → OutboxMemoryState → Run E → Prop
  | claims {limit entries store'} {run' : Run E} (hphase : run.phase = .claiming)
      (hclaims : store.Claims store' limit entries) (hphase' : run'.phase = .looping entries) :
      Effect i store run [.claimed i entries] store' run'
  | publishes {entry rest} {run' : Run E} (hphase : run.phase = .looping (entry :: rest))
      (hphase' : run'.phase = .publishing entry rest) :
      Effect i store run [.published i entry] store run'
  | other {events : List (Event E)} {store' : OutboxMemoryState} {run' : Run E}
      (hatts : store'.attemptsOf = store.attemptsOf) (hevents : events.all Event.isOther = true)
      (hphase' : run'.phase ≠ .claiming) (hunpub : run'.unpublished.Sublist run.unpublished) :
      Effect i store run events store' run'

variable {events : List (Event E)} {run' run : Run E}

theorem RunStep.effect {store : OutboxMemoryState} (h : RunStep i store run events store' run') :
    Effect i store run events store' run' := by
  open OutboxMemoryState in
  cases h with
  | claimFails hphase hclaim =>
    have hsame := entryOf_congr (find_of_claimPending_error hclaim)
    exact .other (attemptsOf_congr hsame) rfl (by simp) (nil_sublist _)
  | claims hphase hclaim => exact .claims hphase (claims_of_claimPending hclaim) rfl
  | returns | fails => exact .other rfl rfl (by simp) (nil_sublist _)
  | attempts hphase => exact .publishes hphase rfl
  | answers hphase result => exact .other rfl rfl (by simp) (by simp [Run.unpublished, hphase])
  | @records entry unattempted result store' marked hphase hmark =>
    refine .other (attemptsOf_congr (entryOf_recordAnswer hmark)) rfl ?_ ?_ <;>
    rcases marked with _ | _ <;> rcases result with _ | _ <;>
    simp [Run.marked, Run.unpublished, hphase]
  | @releases entry rest failure store' released hphase hmark =>
    refine .other (attemptsOf_congr (entryOf_markFailed hmark)) rfl ?_ ?_ <;>
    cases released <;> simp [Run.released, Run.unpublished]

/-! ## Counting along a run -/

def Untouched (past : List (Event E)) (id : OutboxId) (i : ℕ) : Prop :=
  hasClaimed past id i = false ∧ past.any (Event.publishes i id) = false

/-- How many of the first `n` runs claimed the entry. -/
def claimCount (past : List (Event E)) (id : OutboxId) (n : ℕ) : ℕ :=
  Tally.count (hasClaimed past id) (List.range n) true

/-- How many of the first `n` runs claimed the entry and did not pass it on. -/
def skipCount (past : List (Event E)) (id : OutboxId) (n : ℕ) : ℕ :=
  Tally.count (skips past id) (List.range n) true

/-- What run `i` has still to do with the entry. -/
structure Fits (past : List (Event E)) (id : OutboxId) (i : ℕ) (run : Run E) : Prop where
  claiming : run.phase = .claiming → Untouched past id i
  unpublished : id ∈ run.unpublished → skips past id i = true

/-- The counter of the entry, and what the runs have still to do with it. -/
structure Counted (id : OutboxId) (s : State E) (past : List (Event E)) : Prop where
  attempts : s.store.attemptsOf id =
    some (min (claimCount past id s.runs.length) (Word.maxValue 32))
  split : claimCount past id s.runs.length =
    publications past id + skipCount past id s.runs.length
  fresh : ∀ i, s.runs.length ≤ i → Untouched past id i
  fits : ∀ {i : ℕ} {run : Run E}, s.runs[i]? = some run → Fits past id i run

/-- The events concern other runs or other entries. -/
def Foreign (events : List (Event E)) (id : OutboxId) (i : ℕ) : Prop :=
  events.any (Event.claims i id) = false ∧ events.any (Event.publishes i id) = false

section counting

open OutboxMemoryState

variable {id : OutboxId} {s s' : State E} {past : List (Event E)} {entries : List OutboxEntry}
  {entry : OutboxEntry}

theorem hasClaimed_append (past events : List (Event E)) (id : OutboxId) (i : ℕ) :
    hasClaimed (past ++ events) id i = (hasClaimed past id i || events.any (Event.claims i id)) :=
  any_append ..

theorem skips_append (h : Foreign events id i) : skips (past ++ events) id i = skips past id i := by
  rw [skips, hasClaimed_append, h.1, any_append, h.2, Bool.or_false, Bool.or_false, skips]

theorem Untouched.append (h : Untouched past id i) (hforeign : Foreign events id i) :
    Untouched (past ++ events) id i := by
  simpa [Untouched, hasClaimed_append, hforeign.1, hforeign.2] using h

theorem Fits.append (h : Fits past id i run) (hforeign : Foreign events id i) :
    Fits (past ++ events) id i run :=
  ⟨fun hphase => (h.claiming hphase).append hforeign,
    fun hmem => (skips_append hforeign).trans (h.unpublished hmem)⟩

/-- Events that concern no run change no count of the runs. -/
theorem counts_append (past : List (Event E)) (h : ∀ i, Foreign events id i) (n : ℕ) :
    claimCount (past ++ events) id n = claimCount past id n ∧
      skipCount (past ++ events) id n = skipCount past id n := by
  have hclaim : hasClaimed (past ++ events) id = hasClaimed past id := by
    funext i
    rw [hasClaimed_append, (h i).1, Bool.or_false]
  have hskips : skips (past ++ events) id = skips past id := funext fun i => skips_append (h i)
  rw [claimCount, skipCount, hclaim, hskips]
  exact ⟨rfl, rfl⟩

/-- Only claims and publications count. -/
theorem of_isOther (hevents : events.all Event.isOther = true) (past : List (Event E))
    (id : OutboxId) :
    (∀ i, Foreign events id i) ∧ publications (past ++ events) id = publications past id := by
  rw [List.all_eq_true] at hevents
  have hnone : events.countP (Event.isPublication id) = 0 := by
    rw [countP_eq_zero]
    intro event hevent
    have hother := hevents event hevent
    cases event <;> first | exact Bool.false_ne_true | cases hother
  refine ⟨fun i => ?_, by rw [publications, countP_append, hnone, Nat.add_zero, publications]⟩
  simp only [Foreign, List.any_eq_false]
  constructor <;>
  · intro event hevent
    have hother := hevents event hevent
    cases event <;> first | exact Bool.false_ne_true | cases hother

theorem hasClaimed_append_claimed (hmem : id ∈ entries.map OutboxEntry.id) :
    hasClaimed (past ++ [.claimed i entries]) id = Function.update (hasClaimed past id) i true := by
  funext j
  rw [hasClaimed_append]
  by_cases hj : j = i
  · subst hj
    simpa [Event.claims] using Or.inr (List.mem_map.1 hmem)
  · rw [update_of_ne hj]
    simp [Event.claims, Ne.symm hj]

/-- A claim of the entry makes the run one that has to pass it on. -/
theorem skips_append_claimed (hmem : id ∈ entries.map OutboxEntry.id)
    (huntouched : Untouched past id i) :
    skips (past ++ [.claimed i entries]) id = Function.update (skips past id) i true := by
  funext j
  by_cases hj : j = i
  · subst hj
    rw [update_self, skips, hasClaimed_append_claimed hmem, update_self,
      any_append, huntouched.2]
    rfl
  · rw [update_of_ne hj]
    exact skips_append (by simp [Foreign, Event.claims, Event.publishes, Ne.symm hj])

/-- A publication of the entry makes the run one that has passed it on. -/
theorem skips_append_published :
    skips (past ++ [.published i entry]) entry.id =
      Function.update (skips past entry.id) i false := by
  funext j
  by_cases hj : j = i
  · subst hj
    rw [skips]
    simp [Event.publishes]
  · rw [update_of_ne hj]
    exact skips_append (by simp [Foreign, Event.claims, Event.publishes, Ne.symm hj])

theorem Counted.put (h : Counted id s past) (hrun : s.runs[i]? = some run)
    (hforeign : ∀ j ≠ i, Foreign events id j) (hfits : Fits (past ++ events) id i run')
    (hatts : store'.attemptsOf id =
      some (min (claimCount (past ++ events) id s.runs.length) (Word.maxValue 32)))
    (hsplit : claimCount (past ++ events) id s.runs.length =
      publications (past ++ events) id + skipCount (past ++ events) id s.runs.length) :
    Counted id ({ s with store := store' }.setRun i run') (past ++ events) := by
  have hlen : ({ s with store := store' }.setRun i run').runs.length = s.runs.length :=
    length_set ..
  have hlt : i < s.runs.length := (List.getElem?_eq_some_iff.1 hrun).1
  refine ⟨hlen ▸ hatts, hlen ▸ hsplit, ?_, ?_⟩
  · intro j hj
    rw [hlen] at hj
    have hne : j ≠ i := fun heq => absurd hlt (heq ▸ hj).not_gt
    exact (h.fresh j hj).append (hforeign j hne)
  · intro j other hother
    rcases Slots.getElem?_set_eq_some.1 hother with ⟨rfl, _, rfl⟩ | ⟨hne, hold⟩
    · exact hfits
    · exact (h.fits hold).append (hforeign j hne)

theorem Counted.claims (h : Counted id s past) (hrun : s.runs[i]? = some run)
    (hphase : run.phase = .claiming) {limit : ℕ} (hclaims : s.store.Claims store' limit entries)
    (hphase' : run'.phase = .looping entries) :
    Counted id ({ s with store := store' }.setRun i run') (past ++ [.claimed i entries]) := by
  have huntouched := (h.fits hrun).claiming hphase
  have hlt : i < s.runs.length := (List.getElem?_eq_some_iff.1 hrun).1
  have hpubs : publications (past ++ [.claimed i entries]) id = publications past id := by
    simp [publications, Event.isPublication]
  -- When the entry is claimed, one more run has still to pass it on.
  have hcounts : claimCount (past ++ [.claimed i entries]) id s.runs.length =
        claimCount past id s.runs.length + (if id ∈ entries.map OutboxEntry.id then 1 else 0) ∧
      skipCount (past ++ [.claimed i entries]) id s.runs.length =
        skipCount past id s.runs.length + if id ∈ entries.map OutboxEntry.id then 1 else 0 := by
    split_ifs with hmem
    · have hrange := mem_range.2 hlt
      rw [claimCount, hasClaimed_append_claimed hmem, skipCount,
        skips_append_claimed hmem huntouched]
      exact ⟨Tally.count_update nodup_range hrange (by simp [huntouched.1]),
        Tally.count_update nodup_range hrange (by simp [skips, huntouched.1])⟩
    · refine counts_append past (fun j => ?_) _
      simpa [Foreign, Event.claims, Event.publishes] using fun _ => hmem
  refine h.put hrun ?_ ⟨by simp [hphase'], fun hmem => ?_⟩ ?_ ?_
  · intro j hj
    simp [Foreign, Event.claims, Event.publishes, Ne.symm hj]
  · rw [Run.unpublished, hphase'] at hmem
    rw [skips_append_claimed hmem huntouched, update_self]
  · rw [hclaims.attempts, h.attempts, hcounts.1]
    split_ifs with hmem
    · rw [map_some, saturatingAddU32, Word.saturatingAdd_min]
    · rw [Nat.add_zero]
  · rw [hcounts.1, hcounts.2, hpubs, h.split, Nat.add_assoc]

theorem Counted.publishes (h : Counted id s past) (hrun : s.runs[i]? = some run)
    (hnodup : run.unpublished.Nodup) {rest} (hphase : run.phase = .looping (entry :: rest))
    (hphase' : run'.phase = .publishing entry rest) :
    Counted id (s.setRun i run') (past ++ [.published i entry]) := by
  have hlt : i < s.runs.length := (List.getElem?_eq_some_iff.1 hrun).1
  have hpre : run.unpublished = entry.id :: rest.map OutboxEntry.id := by
    simp [Run.unpublished, hphase]
  rw [hpre, nodup_cons] at hnodup
  have hforeign : ∀ j ≠ i, Foreign [Event.published (E := E) i entry] id j := by
    intro j hj
    simp [Foreign, Event.claims, Event.publishes, Ne.symm hj]
  have hother : entry.id ≠ id → ∀ j, Foreign [Event.published (E := E) i entry] id j := by
    intro hne j
    simp [Foreign, Event.claims, Event.publishes, hne]
  have hclaim : claimCount (past ++ [.published i entry]) id s.runs.length =
      claimCount past id s.runs.length := by
    have hsame : hasClaimed (past ++ [.published i entry]) id = hasClaimed past id := by
      funext j
      simp [hasClaimed_append, Event.claims]
    rw [claimCount, hsame, claimCount]
  refine Counted.put h hrun hforeign ⟨by simp [hphase'], fun hmem => ?_⟩ (hclaim ▸ h.attempts) ?_
  · rw [Run.unpublished, hphase'] at hmem
    have hne : entry.id ≠ id := fun heq => hnodup.1 (heq ▸ hmem)
    rw [skips_append (hother hne i)]
    exact (h.fits hrun).unpublished (hpre ▸ mem_cons_of_mem _ hmem)
  · rw [hclaim, h.split]
    by_cases heq : entry.id = id
    · -- The run passes the entry on: one publication more and one run less that skips it.
      subst heq
      have htrue := (h.fits hrun).unpublished (hpre ▸ mem_cons_self)
      have hless := (Tally.having_update_old nodup_range (mem_range.2 hlt) htrue
        Bool.false_ne_true).length_eq
      have hpubs : publications (past ++ [.published i entry]) entry.id =
          publications past entry.id + 1 := by
        simp [publications, Event.isPublication]
      rw [length_cons] at hless
      rw [hpubs, skipCount, skipCount, skips_append_published, Tally.count, hless,
        Tally.count, Nat.add_right_comm, Nat.add_assoc]
    · have hpubs : publications (past ++ [.published i entry]) id =
          publications past id := by
        simp [publications, Event.isPublication, heq]
      rw [hpubs, (counts_append past (hother heq) _).2]

/-- What a run has still to publish is in the store. -/
structure Run.Registered (run : Run E) (store : OutboxMemoryState) : Prop where
  nodup : run.unpublished.Nodup
  present : ∀ id ∈ run.unpublished, store.attemptsOf id ≠ none

theorem Counted.other (h : Counted id s past) (hrun : s.runs[i]? = some run)
    (hatts : store'.attemptsOf = s.store.attemptsOf) (hevents : events.all Event.isOther = true)
    (hphase' : run'.phase ≠ .claiming) (hunpub : run'.unpublished.Sublist run.unpublished) :
    Counted id ({ s with store := store' }.setRun i run') (past ++ events) := by
  obtain ⟨hforeign, hpubs⟩ := of_isOther hevents past id
  obtain ⟨hclaim, hskip⟩ := counts_append past hforeign s.runs.length
  refine h.put hrun (fun j _ => hforeign j) ⟨fun hclaiming => absurd hclaiming hphase', ?_⟩ ?_ ?_
  · intro hmem
    rw [skips_append (hforeign i)]
    exact (h.fits hrun).unpublished (hunpub.subset hmem)
  · rw [hatts, h.attempts, hclaim]
  · rw [hclaim, hskip, hpubs, h.split]

theorem Counted.started (h : Counted id s past) (config : RelayConfig) :
    Counted id { s with runs := s.runs ++ [{ config }] }
      (past ++ [.started s.runs.length config]) := by
  have hother : [Event.started (E := E) s.runs.length config].all Event.isOther = true := rfl
  obtain ⟨hforeign, hpubs⟩ := of_isOther hother past id
  obtain ⟨hclaim, hskip⟩ := counts_append past hforeign s.runs.length
  -- The new run has not claimed anything.
  have hnew := (h.fresh s.runs.length (Nat.le_refl _)).append (hforeign _)
  replace hclaim := (Tally.count_range_succ hnew.1).trans hclaim
  replace hskip := (Tally.count_range_succ (by rw [skips, hnew.1, Bool.false_and])).trans hskip
  refine ⟨?_, ?_, ?_, ?_⟩
  · rw [length_append, claimCount]
    exact hclaim ▸ h.attempts
  · rw [length_append, hpubs]
    exact hclaim.trans (h.split.trans (congrArg _ hskip.symm))
  · intro j hj
    rw [length_append] at hj
    exact (h.fresh j (Nat.le_of_add_right_le hj)).append (hforeign j)
  · intro j run hrun
    rcases Slots.getElem?_concat_eq_some.1 hrun with hold | ⟨rfl, rfl⟩
    · exact (h.fits hold).append (hforeign j)
    · exact ⟨fun _ => hnew, fun hmem => absurd hmem not_mem_nil⟩

/-- The owner of the store did something that concerns no run. -/
theorem Counted.owner (h : Counted id s past)
    (hatts : store'.attemptsOf id = s.store.attemptsOf id)
    (hevents : events.all Event.isOther = true) :
    Counted id { s with store := store' } (past ++ events) := by
  obtain ⟨hforeign, hpubs⟩ := of_isOther hevents past id
  obtain ⟨hclaim, hskip⟩ := counts_append past hforeign s.runs.length
  refine ⟨?_, ?_, fun j hj => (h.fresh j hj).append (hforeign j),
    fun {j run} hrun => (h.fits hrun).append (hforeign j)⟩
  · rw [hatts, h.attempts, hclaim]
  · rw [hclaim, hskip, hpubs, h.split]

theorem Counted.step (h : Counted id s past) (hreg : ∀ run ∈ s.runs, run.Registered s.store)
    (hstep : (machine E).Step s events s') : Counted id s' (past ++ events) := by
  cases changes_of_step hstep with
  | @run i run run' store' _ hrun hstep =>
    cases hstep.effect with
    | claims hphase hclaims hphase' => exact h.claims hrun hphase hclaims hphase'
    | publishes hphase hphase' =>
      exact h.publishes hrun (hreg run (mem_of_getElem? hrun)).nodup hphase hphase'
    | other hatts hevents hphase' hunpub =>
      exact h.other hrun hatts hevents hphase' hunpub
  | dropped hrun => exact h.other hrun rfl rfl (by simp) (nil_sublist _)
  | started config => exact h.started config
  | injected hsame => exact h.owner (congrFun (attemptsOf_congr (entryOf_congr hsame)) id) rfl
  | @inserted entry store' result hinsert =>
    refine h.owner ?_ rfl
    rcases attemptsOf_insert hinsert with ⟨_, _, hsame⟩ | ⟨_, hnew, hwritten⟩
    · rw [hsame]
    · -- The entry is there already, so another one was inserted.
      have hne : id ≠ entry.id := by
        rintro rfl
        have hsome := h.attempts
        rw [hnew] at hsome
        cases hsome
      rw [hwritten, update_of_ne hne]

/-- No entry is taken out of the store. -/
theorem Changes.present (h : Changes s s' events) (hid : s.store.attemptsOf id ≠ none) :
    s'.store.attemptsOf id ≠ none := by
  cases h with
  | run hrun hstep =>
    cases hstep.effect with
    | claims hphase hclaims =>
      refine (hclaims.attempts id).trans_ne ?_
      split_ifs
      · simpa using hid
      · exact hid
    | publishes => exact hid
    | other hatts => exact (congrFun hatts id).trans_ne hid
  | dropped | started => exact hid
  | injected hsame => exact (congrFun (attemptsOf_congr (entryOf_congr hsame)) id).trans_ne hid
  | inserted hinsert =>
    rcases attemptsOf_insert hinsert with ⟨_, _, hsame⟩ | ⟨_, _, hwritten⟩
    · exact (congrFun hsame id).trans_ne hid
    · refine (congrFun hwritten id).trans_ne ?_
      rw [update_apply]
      split
      · exact some_ne_none _
      · exact hid

theorem registered_step (h : ∀ run ∈ s.runs, run.Registered s.store)
    (hstep : (machine E).Step s events s') : ∀ run ∈ s'.runs, run.Registered s'.store := by
  have hchanges := changes_of_step hstep
  have hpres : ∀ {id}, s.store.attemptsOf id ≠ none → s'.store.attemptsOf id ≠ none :=
    hchanges.present
  have hold : ∀ run ∈ s.runs, run.Registered s'.store :=
    fun run hrun => ⟨(h run hrun).nodup, fun id hid => hpres ((h run hrun).present id hid)⟩
  -- A run that publishes less than before.
  have hless : ∀ run ∈ s.runs, ∀ run' : Run E, run'.unpublished.Sublist run.unpublished →
      run'.Registered s'.store :=
    fun run hrun run' hsub => ⟨(hold run hrun).nodup.sublist hsub,
      fun id hid => (hold run hrun).present id (hsub.subset hid)⟩
  cases hchanges with
  | injected | inserted => exact hold
  | started config =>
    intro run hrun
    rcases mem_append.1 hrun with hmem | hnew
    · exact hold run hmem
    · obtain rfl := mem_singleton.1 hnew
      exact ⟨nodup_nil, fun id hid => absurd hid not_mem_nil⟩
  | dropped hrun =>
    intro other hother
    rcases mem_or_eq_of_mem_set hother with hmem | rfl
    · exact hold other hmem
    · exact hless _ (mem_of_getElem? hrun) _ (nil_sublist _)
  | @run i run run' store' _ hrun hstep =>
    have hmem := mem_of_getElem? hrun
    intro other hother
    rcases mem_or_eq_of_mem_set hother with hother | rfl
    · exact hold other hother
    · cases hstep.effect with
      | claims hphase hclaims hphase' =>
        refine ⟨?_, fun id hid => hpres fun hnone => ?_⟩
        · rw [Run.unpublished, hphase']
          exact hclaims.nodup
        · rw [Run.unpublished, hphase'] at hid
          have hpend := hclaims.pending id hid
          rw [stateOf, map_eq_none_iff.1 hnone] at hpend
          cases hpend
      | publishes hphase hphase' =>
        exact hless run hmem _ (by simp [Run.unpublished, hphase, hphase'])
      | other _ _ _ hunpub => exact hless run hmem _ hunpub

theorem registered_of_reaches {history} (h : Reaches history s) :
    ∀ run ∈ s.runs, run.Registered s.store :=
  Runs.invariant (I := fun s => ∀ run ∈ s.runs, run.Registered s.store)
    (fun hreg hstep => registered_step hreg hstep) h
    fun _ hrun => absurd hrun not_mem_nil

theorem counted_inserted (hreg : ∀ run ∈ s.runs, run.Registered s.store)
    (hzero : entry.attempts = 0)
    (hinsert : step s (.insert entry) = some (s', [.inserted entry.id (.ok ())])) :
    Counted entry.id s' [] := by
  simp only [step, Option.some.injEq, Prod.mk.injEq] at hinsert
  obtain ⟨rfl, hevent⟩ := hinsert
  generalize hnext : s.store.insert entry = next at hevent ⊢
  obtain ⟨store', result⟩ := next
  obtain rfl : result = .ok () := by simpa using hevent
  rcases attemptsOf_insert hnext with ⟨error, herror, _⟩ | ⟨_, hnone, hwritten⟩
  · cases herror
  have hcount : claimCount ([] : List (Event E)) entry.id s.runs.length = 0 :=
    Tally.count_eq_zero fun _ _ => Bool.false_ne_true
  have hskip : skipCount ([] : List (Event E)) entry.id s.runs.length = 0 :=
    Tally.count_eq_zero fun _ _ => Bool.false_ne_true
  refine ⟨?_, ?_, fun _ _ => ⟨rfl, rfl⟩, fun {i run} hrun => ⟨fun _ => ⟨rfl, rfl⟩, fun hmem => ?_⟩⟩
  · rw [hwritten, update_self, hcount, hzero]
    rfl
  · rw [hcount, hskip]
    rfl
  · exact absurd hnone ((hreg run (mem_of_getElem? hrun)).present _ hmem)

end counting

/-! ## Main result -/

/-- An entry is inserted with no attempts. In every state that the relays reach from there,
its attempts are the times it was passed to a producer and the runs that claimed it
without passing it on. -/
theorem attempts_eq {before history : List (Event E)} {s₀ s₁ s : State E}
    (hreaches : Reaches before s₀) {entry : OutboxEntry} (hzero : entry.attempts = 0)
    (hinsert : step s₀ (.insert entry) = some (s₁, [.inserted entry.id (.ok ())]))
    (hruns : Runs (machine E).Step s₁ history s) (hfew : s.runs.length < 2 ^ 32) :
    ∃ record, s.store.find entry.id = some record ∧
      record.entry.attempts =
        publications history entry.id + skipCount history entry.id s.runs.length := by
  have hregistered := registered_of_reaches hreaches
  have hstart := counted_inserted hregistered hzero hinsert
  have hlast : Counted entry.id s ([] ++ history) := by
    refine (Runs.history (I := fun s past => Counted entry.id s past ∧
      ∀ run ∈ s.runs, run.Registered s.store) ?_ [] hruns
      ⟨hstart, registered_step hregistered ⟨.insert entry, hinsert⟩⟩).1
    rintro s past events s' ⟨hcounted, hregistered⟩ hstep
    exact ⟨hcounted.step hregistered hstep, registered_step hregistered hstep⟩
  rw [List.nil_append] at hlast
  have hle : claimCount history entry.id s.runs.length ≤ s.runs.length := by
    calc claimCount history entry.id s.runs.length
        ≤ (List.range s.runs.length).length := List.length_filter_le ..
      _ = s.runs.length := List.length_range
  have hfits : claimCount history entry.id s.runs.length ≤ Word.maxValue 32 :=
    Nat.le_sub_one_of_lt (hle.trans_lt hfew)
  have hattempts := hlast.attempts
  rw [Nat.min_eq_left hfits, hlast.split] at hattempts
  exact Option.map_eq_some_iff.1 hattempts

namespace Sample

/-- A run claims both entries, fails with the first and gives the second back. -/
def givenBack : List (Action Unit) :=
  [.runOnce config, .poll 0, .poll 0, .publishReturns 0 (.error ()), .poll 0, .poll 0, .poll 0]

def bothInserted : State Unit :=
  (after [.insert (entry 0), .insert (entry 1)]).1

end Sample

/-- The second entry was never passed to the producer and has one attempt, for the run that
claimed it and gave it back. -/
theorem attempts_eq_given_back :
    let last := (machine Unit).after Sample.bothInserted Sample.givenBack
    publications last.2 ⟨1⟩ = 0 ∧ skipCount last.2 ⟨1⟩ last.1.runs.length = 1 ∧
      ∃ record, last.1.store.find ⟨1⟩ = some record ∧
        record.entry.attempts =
          publications last.2 ⟨1⟩ + skipCount last.2 ⟨1⟩ last.1.runs.length := by
  intro last
  have hruns : Runs (machine Unit).Step Sample.bothInserted last.2 last.1 := Machine.runs_after rfl
  have hzero : (Sample.entry 1).attempts = 0 := rfl
  have hinsert : step (Sample.after [.insert (Sample.entry 0)]).1 (.insert (Sample.entry 1)) =
      some (Sample.bothInserted, [.inserted ⟨1⟩ (.ok ())]) := rfl
  exact ⟨rfl, rfl, attempts_eq (Sample.reaches [.insert (Sample.entry 0)] rfl) hzero hinsert hruns
    (by decide)⟩

/-- No run is in progress, the entry was inserted without attempts and never passed to the
producer, and its attempts are one. -/
theorem released_claim_counts :
    let last := Sample.after
      ([.insert (Sample.entry 0), .insert (Sample.entry 1)] ++ Sample.givenBack)
    Reaches last.2 last.1 ∧ (∀ run ∈ last.1.runs, run.inProgress = false) ∧
      (Sample.entry 1).attempts = 0 ∧ publications last.2 ⟨1⟩ = 0 ∧
      last.1.store.attemptsOf ⟨1⟩ = some 1 ∧
      (last.1.store.find ⟨1⟩).map OutboxRecord.lastFailure =
        some (some ⟨.notAttempted, .retry⟩) := by
  intro last
  refine ⟨Sample.reaches _ rfl, ?_, rfl, rfl, rfl, rfl⟩
  intro run hrun
  obtain rfl := List.mem_singleton.1 hrun
  rfl

end PlenoraRuntime.Outbox
