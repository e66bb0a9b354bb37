import Outreach.Engine.System

/-!
# What the store is to the runs

A system asks its store to keep snapshots and goes on whatever the store answers. A map between two
stores that goes along with these requests (`StoreAccess.Carries`) therefore takes the systems on
the one store to those on the other (`System.mapStore_performAll`). Every store is such an image of
the list of its requests, so two systems to which the same happens differ in their stores only, and
these were asked to keep the same (`System.runs_alike`).
-/

namespace Outreach

/-- A request to keep an execution under a key for a number of seconds. -/
structure StoreRequest where
  now : Nat
  key : String
  execution : Execution
  seconds : Nat

namespace StoreAccess

variable {σ τ : Type}

/-- A store that only lists its requests. -/
def listing : StoreAccess (List StoreRequest) where
  set requests now key e seconds := (.ok (), requests ++ [⟨now, key, e, seconds⟩])
  get requests _ _ := (.ok none, requests)

/-- A store after a list of requests, whatever it answered to them. -/
def afterAll (access : StoreAccess σ) (store : σ) (requests : List StoreRequest) : σ :=
  requests.foldl
    (fun store request =>
      (access.set store request.now request.key request.execution request.seconds).2) store

/-- A map from the one store to the other that goes along with requests. -/
def Carries (access : StoreAccess σ) (access' : StoreAccess τ) (f : σ → τ) : Prop :=
  ∀ store now key e seconds,
    f (access.set store now key e seconds).2 = (access'.set (f store) now key e seconds).2

/-- Every store goes along with the list of its requests. -/
theorem carries_afterAll (access : StoreAccess σ) (store : σ) :
    listing.Carries access (access.afterAll store) := by
  intro requests now key e seconds
  exact List.foldl_append

end StoreAccess

namespace System

variable {σ τ : Type} {access : StoreAccess σ} {access' : StoreAccess τ} {f : σ → τ}

/-- A system with another store. -/
def mapStore (f : σ → τ) (s : System σ) : System τ :=
  ⟨s.manager, s.jobs, f s.store, s.reports⟩

theorem keep_carried (hf : access.Carries access' f) (limits : Limits) (now : Nat) (store : σ)
    (snapshots : List Execution) :
    f (keep access limits now store snapshots) = keep access' limits now (f store) snapshots := by
  induction snapshots generalizing store with
  | nil => rfl
  | cons e rest ih =>
    have hfirst := hf store now e.key e limits.keepFor
    calc f (keep access limits now store (e :: rest))
        = keep access' limits now (f (access.set store now e.key e limits.keepFor).2) rest := ih _
      _ = keep access' limits now (f store) (e :: rest) := by rw [hfirst]; rfl

theorem mapStore_place (hf : access.Carries access' f) (engine : Engine) (s : System σ)
    (now job seen : Nat) (run : Run) (manager : Manager) :
    (s.place access engine now job seen run manager).mapStore f =
      (s.mapStore f).place access' engine now job seen run manager := by
  unfold place mapStore
  rw [keep_carried hf]

theorem mapStore_grant (hf : access.Carries access' f) (engine : Engine) (s : System σ)
    (moment : Moment) :
    (s.grant access engine moment).mapStore f = (s.mapStore f).grant access' engine moment := by
  have hjobs : (s.mapStore f).jobs = s.jobs := rfl
  have hmanager : (s.mapStore f).manager = s.manager := rfl
  unfold grant
  rw [hjobs, hmanager]
  split
  next job manager hfirst hslot =>
    split
    next call hjob => exact mapStore_place hf ..
    next => rfl
  next => rfl

theorem mapStore_resume (hf : access.Carries access' f) (engine : Engine) (s : System σ)
    (job : Nat) (wake : Wake) :
    (s.resume access engine job wake).mapStore f =
      (s.mapStore f).resume access' engine job wake := by
  have hjobs : (s.mapStore f).jobs = s.jobs := rfl
  unfold resume
  rw [hjobs]
  split
  next r hjob =>
    split
    next => rfl
    next =>
      have hplaced := mapStore_place hf engine s wake.moment.now.milliseconds job
        r.walk.trace.length (r.resume engine wake s.manager).1 (r.resume engine wake s.manager).2
      have hmanager : (s.mapStore f).manager = s.manager := rfl
      dsimp only
      rw [hmanager, ← hplaced]
      split <;> rfl
  next => rfl

theorem mapStore_perform (hf : access.Carries access' f) (engine : Engine) (s : System σ)
    (action : Action) :
    (s.perform access engine action).mapStore f =
      (s.mapStore f).perform access' engine action := by
  cases action with
  | call => rfl
  | grant moment => exact mapStore_grant hf engine s moment
  | resume job wake => exact mapStore_resume hf engine s job wake
  | cancel => rfl

/-- **What happens to a system happens to its image on another store.** -/
theorem mapStore_performAll (hf : access.Carries access' f) (engine : Engine) (s : System σ)
    (actions : List Action) :
    (s.performAll access engine actions).mapStore f =
      (s.mapStore f).performAll access' engine actions := by
  induction actions generalizing s with
  | nil => rfl
  | cons action rest ih =>
    calc ((s.perform access engine action).performAll access engine rest).mapStore f
        = ((s.perform access engine action).mapStore f).performAll access' engine rest := ih _
      _ = ((s.mapStore f).perform access' engine action).performAll access' engine rest := by
        rw [mapStore_perform hf]

/-- A system is the image of what happens when requests are only listed. -/
theorem performAll_eq_mapStore (access : StoreAccess σ) (engine : Engine) (store : σ)
    (actions : List Action) :
    (create engine.limits store).performAll access engine actions =
      ((create engine.limits []).performAll .listing engine actions).mapStore
        (access.afterAll store) := by
  rw [mapStore_performAll (access.carries_afterAll store)]
  rfl

/-- **Runs are alike on all stores**, whatever the stores answer and whatever they keep. When the
same happens to two systems with a store each, all runs tried the same nodes, with the same
executions seen by them, wrote the same snapshots and came to the same executions, so that no entry
in them is due to a store; the same runs are registered and cancelled, the same reports were made,
and both stores were asked to keep the same snapshots in the same order. -/
theorem runs_alike (access : StoreAccess σ) (access' : StoreAccess τ) (engine : Engine) (store : σ)
    (store' : τ) (actions : List Action) :
    let s := (create engine.limits store).performAll access engine actions
    let s' := (create engine.limits store').performAll access' engine actions
    s.jobs = s'.jobs ∧ s.manager = s'.manager ∧ s.reports = s'.reports ∧
      ∃ requests, s.store = access.afterAll store requests ∧
        s'.store = access'.afterAll store' requests := by
  intro s s'
  let listed := (create engine.limits []).performAll .listing engine actions
  have hs : s = listed.mapStore (access.afterAll store) := performAll_eq_mapStore ..
  have hs' : s' = listed.mapStore (access'.afterAll store') := performAll_eq_mapStore ..
  rw [hs, hs']
  exact ⟨rfl, rfl, rfl, listed.store, rfl, rfl⟩

end System

end Outreach
