import PlenoraRuntime.Core.Text
import PlenoraRuntime.Foundation.OrderedTable

/-!
# The health registry

Health and readiness are two tables of reports, each by the name of a component; the
aggregate is the worst status reported. A report replaces the one its component had.
-/

namespace PlenoraRuntime.Core

open OrderedTable

inductive HealthStatus
  | healthy
  | degraded
  | unhealthy
  deriving DecidableEq, Repr

inductive ReadinessStatus
  | ready
  | notReady
  deriving DecidableEq, Repr

structure ComponentHealth where
  component : Text
  status : HealthStatus
  message : Option Text
  deriving DecidableEq

structure ComponentReadiness where
  component : Text
  status : ReadinessStatus
  message : Option Text
  deriving DecidableEq

structure HealthSnapshot where
  status : HealthStatus
  components : List ComponentHealth
  deriving DecidableEq

structure ReadinessSnapshot where
  status : ReadinessStatus
  components : List ComponentReadiness
  deriving DecidableEq

def aggregateHealth : HealthStatus → HealthStatus → HealthStatus
  | .unhealthy, _ => .unhealthy
  | _, .unhealthy => .unhealthy
  | .degraded, _ => .degraded
  | _, .degraded => .degraded
  | .healthy, .healthy => .healthy

def aggregateReadiness : ReadinessStatus → ReadinessStatus → ReadinessStatus
  | .notReady, _ => .notReady
  | _, .notReady => .notReady
  | .ready, .ready => .ready

structure HealthRegistry where
  healthReports : List (Text × ComponentHealth)
  readinessReports : List (Text × ComponentReadiness)
  healthSorted : OrderedTable.Sorted healthReports
  readinessSorted : OrderedTable.Sorted readinessReports

namespace HealthRegistry

variable (registry : HealthRegistry)

def new : HealthRegistry where
  healthReports := []
  readinessReports := []
  healthSorted := List.Pairwise.nil
  readinessSorted := List.Pairwise.nil

def setHealth (health : ComponentHealth) : HealthRegistry :=
  { registry with
    healthReports := OrderedTable.insert health.component health registry.healthReports
    healthSorted := registry.healthSorted.insert }

def setReadiness (readiness : ComponentReadiness) : HealthRegistry :=
  { registry with
    readinessReports :=
      OrderedTable.insert readiness.component readiness registry.readinessReports
    readinessSorted := registry.readinessSorted.insert }

def removeHealth (component : Text) : HealthRegistry × Option ComponentHealth :=
  ({ registry with
      healthReports := OrderedTable.erase component registry.healthReports
      healthSorted := registry.healthSorted.erase component },
    OrderedTable.get component registry.healthReports)

def removeReadiness (component : Text) : HealthRegistry × Option ComponentReadiness :=
  ({ registry with
      readinessReports := OrderedTable.erase component registry.readinessReports
      readinessSorted := registry.readinessSorted.erase component },
    OrderedTable.get component registry.readinessReports)

def health : HealthSnapshot where
  status := registry.healthReports.foldl
    (fun status report => aggregateHealth status report.2.status) .healthy
  components := registry.healthReports.map Prod.snd

def readiness : ReadinessSnapshot where
  status := registry.readinessReports.foldl
    (fun status report => aggregateReadiness status report.2.status) .ready
  components := registry.readinessReports.map Prod.snd

def healthOf (component : Text) : Option HealthStatus :=
  (OrderedTable.get component registry.healthReports).map ComponentHealth.status

def readinessOf (component : Text) : Option ReadinessStatus :=
  (OrderedTable.get component registry.readinessReports).map ComponentReadiness.status

/-! ## What a component reports after an update -/

variable {registry} {component other : Text} {report : ComponentReadiness}

@[simp] theorem healthOf_setHealth {report} :
    (registry.setHealth report).healthOf component =
      if component = report.component then some report.status
      else registry.healthOf component := by
  unfold healthOf setHealth
  rw [get_insert]
  split_ifs <;> rfl

@[simp] theorem readinessOf_setReadiness :
    (registry.setReadiness report).readinessOf component =
      if component = report.component then some report.status
      else registry.readinessOf component := by
  unfold readinessOf setReadiness
  rw [get_insert]
  split_ifs <;> rfl

theorem healthOf_removeHealth (h : component ≠ other) :
    (registry.removeHealth other).1.healthOf component = registry.healthOf component := by
  unfold healthOf removeHealth
  rw [get_erase registry.healthSorted.nodup, if_neg h]

theorem readinessOf_removeReadiness (h : component ≠ other) :
    (registry.removeReadiness other).1.readinessOf component = registry.readinessOf component := by
  unfold readinessOf removeReadiness
  rw [get_erase registry.readinessSorted.nodup, if_neg h]

/-! ## The aggregates -/

theorem foldl_aggregateHealth {status} {reports : List (Text × ComponentHealth)} :
    reports.foldl (fun status report => aggregateHealth status report.2.status) status =
        .unhealthy ↔
      status = .unhealthy ∨ ∃ report ∈ reports, report.2.status = .unhealthy := by
  induction reports generalizing status with
  | nil => simp
  | cons report reports ih =>
    have hstep : aggregateHealth status report.2.status = .unhealthy ↔
        status = .unhealthy ∨ report.2.status = .unhealthy := by
      cases status <;> cases report.2.status <;> simp [aggregateHealth]
    rw [List.foldl_cons, ih, hstep, or_assoc, List.exists_mem_cons_iff]

theorem foldl_aggregateReadiness {status} {reports : List (Text × ComponentReadiness)} :
    reports.foldl (fun status report => aggregateReadiness status report.2.status) status =
        .notReady ↔
      status = .notReady ∨ ∃ report ∈ reports, report.2.status = .notReady := by
  induction reports generalizing status with
  | nil => simp
  | cons report reports ih =>
    have hstep : aggregateReadiness status report.2.status = .notReady ↔
        status = .notReady ∨ report.2.status = .notReady := by
      cases status <;> cases report.2.status <;> simp [aggregateReadiness]
    rw [List.foldl_cons, ih, hstep, or_assoc, List.exists_mem_cons_iff]

/-- One unhealthy component makes the aggregate unhealthy. -/
theorem health_status_of_healthOf (h : registry.healthOf component = some .unhealthy) :
    registry.health.status = .unhealthy := by
  obtain ⟨report, hget, hstatus⟩ := Option.map_eq_some_iff.mp h
  have hmem := (get_eq_some_iff registry.healthSorted.nodup).mp hget
  exact foldl_aggregateHealth.mpr (.inr ⟨_, hmem, hstatus⟩)

/-- One component that is not ready makes the aggregate not ready. -/
theorem readiness_status_of_readinessOf (h : registry.readinessOf component = some .notReady) :
    registry.readiness.status = .notReady := by
  obtain ⟨report, hget, hstatus⟩ := Option.map_eq_some_iff.mp h
  have hmem := (get_eq_some_iff registry.readinessSorted.nodup).mp hget
  exact foldl_aggregateReadiness.mpr (.inr ⟨_, hmem, hstatus⟩)

end HealthRegistry

end PlenoraRuntime.Core
