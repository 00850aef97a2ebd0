import Depsis.Desk.Tasks

/-! How truthful a task's history is. Statuses and the time of completion hold in every run;
the rows of the history where updates do not overlap.
-/
namespace Depsis.Desk.History

open Depsis.Foundation List Option Function Machine

variable {iso : Int → String} {first : TaskRow} {state next : State} {event : Event}

def fields : List Field := [.status,.priority,.dueAt,.assigneeId,.body,.description,.parentId]

theorem mem_fields (field : Field) : field ∈ fields := by
  cases field <;> decide

theorem diff_eq (iso : Int → String) (before after : TaskRow) :
    diff iso before after = fields.flatMap (fun field => add field (recorded iso before field) (recorded iso after field)) := by
  simp [diff,fields,recorded]

theorem replay_append (values : Field → Option String) (left right : List ActivityRow) :
    replay values (left++right) = (replay values left).bind (fun reached => replay reached right) := by
  induction left generalizing values with
  | nil => rfl
  | cons entry rest ih =>
    simp only [cons_append,replay]
    split
    · exact ih _
    · rfl

theorem replay_add (values : Field → Option String) (actorId : Option String) (field : Field) (new : Option String) :
    replay values ((add field (values field) new).map (fun change => ⟨actorId,change⟩)) =
      some (Function.update values field new) := by
  unfold add
  split
  · simp [replay]
  · next same =>
    have same : values field = new := by simpa using same
    rw [← same,update_eq_self]
    rfl

theorem replay_fields (before after : Field → Option String) (actorId : Option String) {parts : List Field}
    (distinct : parts.Nodup) {values : Field → Option String} (agree : ∀ field ∈ parts, values field = before field) :
    replay values ((parts.flatMap (fun field => add field (before field) (after field))).map (fun change => ⟨actorId,change⟩)) =
      some (fun field => if field ∈ parts then after field else values field) := by
  induction parts generalizing values with
  | nil => simp [replay]
  | cons part rest ih =>
    obtain ⟨apart,distinct⟩ := nodup_cons.mp distinct
    rw [flatMap_cons,map_append,replay_append,← agree part mem_cons_self,replay_add,bind_some]
    have others : ∀ field ∈ rest, Function.update values part (after part) field = before field := by
      intro field member
      have different : field ≠ part := fun same => apart (same ▸ member)
      rw [update_of_ne different]
      exact agree field (mem_cons_of_mem _ member)
    rw [ih distinct others]
    congr 1
    funext field
    by_cases same : field = part
    · subst same
      simp [apart]
    · simp [same]

theorem replay_diff (iso : Int → String) (before after : TaskRow) (actorId : Option String) :
    replay (recorded iso before) ((diff iso before after).map (fun change => ⟨actorId,change⟩)) =
      some (recorded iso after) := by
  rw [diff_eq,replay_fields (recorded iso before) (recorded iso after) actorId (by decide) (fun _ _ => rfl)]
  congr 1
  funext field
  rw [if_pos (mem_fields field)]

theorem truth_append (iso : Int → String) (commits : List Commit) (commit : Commit) :
    truth iso (commits++[commit]) =
      truth iso commits ++ (diff iso commit.before commit.after).map (fun change => ⟨commit.actorId,change⟩) := by
  simp [truth]

theorem replay_truth {commits : List Commit} {row : TaskRow} (linked : Linked first commits row) :
    replay (recorded iso first) (truth iso commits) = some (recorded iso row) := by
  induction commits generalizing first with
  | nil =>
    rw [linked]
    rfl
  | cons commit rest ih =>
    obtain ⟨rfl,linked⟩ := linked
    rw [truth,flatMap_cons,replay_append,replay_diff,bind_some]
    exact ih linked

theorem linked_append {commits : List Commit} {row : TaskRow} (linked : Linked first commits row) (commit : Commit)
    (follows : commit.before = row) : Linked first (commits++[commit]) commit.after := by
  induction commits generalizing first with
  | nil => exact ⟨follows.trans linked,rfl⟩
  | cons head rest ih => exact ⟨linked.1,ih linked.2⟩

theorem wanted_allowed {before : TaskRow} {changes : Changes} {status : TaskStatus}
    (planned : plan before changes = .write (some status)) : Allowed before.status status := by
  unfold plan at planned
  split at planned
  · cases planned
  · split at planned
    · next asked _ =>
      split at planned
      · cases planned
      · next refused =>
        cases planned
        by_cases same : status = before.status
        · exact Or.inl same
        · exact Or.inr (Classical.not_not.mp (fun absent => refused ⟨same,absent⟩))
    · split at planned <;> cases planned

def Matches (row : TaskRow) : Prop := row.doneAt.isSome = true ↔ row.status = .done

theorem written_timed {changes : Changes} {status : Option TaskStatus} {now : Int} {row : TaskRow} (fits : Matches row)
    (actorId : Option String) : Timed ⟨actorId,row,written changes status now row⟩ := by
  cases status with
  | none => exact ⟨fits,fun _ _ => rfl⟩
  | some status =>
    by_cases done : status = .done
    · subst done
      refine ⟨by simp [written],fun was _ => ?_⟩
      obtain ⟨time,set⟩ := isSome_iff_exists.mp (fits.mpr was)
      simp [written,set]
    · refine ⟨?_,fun _ is => absurd is done⟩
      cases status <;> simp_all [written]

structure Kept (first : TaskRow) (state : State) : Prop where
  linked : Linked first state.commits state.row
  fits : Matches state.row
  allowed : ∀ commit ∈ state.commits, Allowed commit.before.status commit.after.status
  timed : ∀ commit ∈ state.commits, Timed commit
  planned : ∀ request before changes status actorId, state.requests request = some (.read before changes status actorId) →
    plan before changes = .write status

theorem kept_first (fits : Matches first) : Kept first (State.first first) where
  linked := rfl
  fits := fits
  allowed commit member := by cases member
  timed commit member := by cases member
  planned request before changes status actorId is := by cases is

theorem Kept.at (kept : Kept first state) {request : Nat} {stage : Option Stage}
    (planned : ∀ before changes status actorId, stage = some (.read before changes status actorId) →
      plan before changes = .write status) : Kept first (state.at request stage) where
  linked := kept.linked
  fits := kept.fits
  allowed := kept.allowed
  timed := kept.timed
  planned other before changes status actorId is := by
    simp only [State.at,update_apply] at is
    split at is
    · exact planned before changes status actorId is
    · exact kept.planned other before changes status actorId is

theorem step_kept (kept : Kept first state) (taken : step iso state event = some next) : Kept first next := by
  cases event with simp only [step] at taken
  | reads request changes actorId =>
    split at taken
    · cases taken
    · split at taken
      · next status planned =>
        cases taken
        refine kept.at (fun before asked reached actor is => ?_)
        cases is
        exact planned
      · cases taken
        exact kept
  | writes request now allowed =>
    split at taken
    · next before changes status actorId reading =>
      split at taken
      · next guarded' =>
        cases taken
        have moved : Kept first (state.at request (some (.wrote (diff iso before (written changes status now state.row)) actorId))) :=
          kept.at (fun _ _ _ _ is => by cases is)
        have timed : Timed ⟨actorId,state.row,written changes status now state.row⟩ := written_timed kept.fits actorId
        have planned := kept.planned request before changes status actorId reading
        have follows : Allowed state.row.status (written changes status now state.row).status := by
          cases status with
          | none => exact Or.inl rfl
          | some status =>
            have same : state.row.status = before.status := by
              simpa [guarded] using ((Bool.and_eq_true _ _).mp guarded').2
            rw [same]
            exact wanted_allowed planned
        refine ⟨linked_append kept.linked _ rfl,timed.1,?_,?_,moved.planned⟩
        · intro commit member
          rcases mem_append.mp member with old | new
          · exact kept.allowed commit old
          · cases mem_singleton.mp new
            exact follows
        · intro commit member
          rcases mem_append.mp member with old | new
          · exact kept.timed commit old
          · cases mem_singleton.mp new
            exact timed
      · cases taken
        exact kept.at (fun _ _ _ _ is => by cases is)
    · cases taken
  | records request inserted =>
    split at taken
    · cases taken
      have moved : Kept first (state.at request none) := kept.at (fun _ _ _ _ is => by cases is)
      exact ⟨moved.linked,moved.fits,moved.allowed,moved.timed,moved.planned⟩
    · cases taken
  | stops request =>
    obtain ⟨_,_,rfl⟩ := map_eq_some_iff.mp taken
    exact kept.at (fun _ _ _ _ is => by cases is)

def Behind (iso : Int → String) (state : State) : Prop :=
  (Settled state ∧ state.activity = truth iso state.commits) ∨
    ∃ request fields actorId, state.requests request = some (.wrote fields actorId) ∧
      (∀ other fields' actorId', state.requests other = some (.wrote fields' actorId') → other = request) ∧
      state.activity ++ fields.map (fun change => ⟨actorId,change⟩) = truth iso state.commits

theorem Behind.at (behind : Behind iso state) {request : Nat} {stage : Option Stage}
    (before : ∀ fields actorId, state.requests request ≠ some (.wrote fields actorId))
    (after : ∀ fields actorId, stage ≠ some (.wrote fields actorId)) : Behind iso (state.at request stage) := by
  have same : ∀ other fields actorId, (state.at request stage).requests other = some (.wrote fields actorId) ↔
      state.requests other = some (.wrote fields actorId) := by
    intro other fields actorId
    simp only [State.at,update_apply]
    split
    · next here =>
      subst here
      exact ⟨fun is => absurd is (after _ _),fun is => absurd is (before _ _)⟩
    · exact Iff.rfl
  rcases behind with ⟨settled,exact'⟩ | ⟨writer,fields,actorId,wrote,only,exact'⟩
  · exact Or.inl ⟨fun other fields actorId is => settled other fields actorId ((same other fields actorId).mp is),exact'⟩
  · refine Or.inr ⟨writer,fields,actorId,(same _ _ _).mpr wrote,?_,exact'⟩
    exact fun other fields' actorId' is => only other fields' actorId' ((same _ _ _).mp is)

theorem step_behind (behind : Behind iso state) (serial : Serial iso state event) (taken : step iso state event = some next) :
    Behind iso next := by
  cases event with simp only [step] at taken
  | reads request changes actorId =>
    split at taken
    · cases taken
    · next absent =>
      split at taken
      · cases taken
        exact behind.at (by simp [absent]) nofun
      · cases taken
        exact behind
  | writes request now allowed =>
    split at taken
    · next before changes status actorId reading =>
      obtain ⟨same,settled⟩ := serial before changes status actorId reading
      split at taken
      · cases taken
        have exact' : state.activity = truth iso state.commits := by
          rcases behind with ⟨_,exact'⟩ | ⟨writer,fields,actor,wrote,_⟩
          · exact exact'
          · exact absurd wrote (settled writer fields actor)
        refine Or.inr ⟨request,_,actorId,update_self _ _ _,?_,?_⟩
        · intro other fields actor is
          simp only [State.at,update_apply] at is
          split at is
          · assumption
          · exact absurd is (settled other fields actor)
        · simp only [State.at]
          rw [truth_append,exact',diff_eq,diff_eq,same]
      · cases taken
        exact behind.at (by simp [reading]) nofun
    · cases taken
  | records request inserted =>
    split at taken
    · next fields actorId wrote =>
      cases serial
      cases taken
      rcases behind with ⟨settled,_⟩ | ⟨writer,fields',actor,wrote',only,exact'⟩
      · exact absurd wrote (settled request fields actorId)
      · have here := only request fields actorId wrote
        subst here
        rw [wrote] at wrote'
        cases wrote'
        refine Or.inl ⟨fun other fields' actor' is => ?_,exact'⟩
        simp only [State.at,update_apply] at is
        split at is
        · cases is
        · next apart => exact apart (only other fields' actor' is)
    · cases taken
  | stops request =>
    obtain ⟨_,_,rfl⟩ := map_eq_some_iff.mp taken
    exact behind.at serial nofun

variable {events : List Event} {final : State}

/-- Statuses follow the table and the time of completion the status, in every run. Where updates do not
overlap, the history is exactly what was committed. -/
theorem history_truthful {organizationId createdBy body : String} {assigneeId parentId : Option String}
    (ran : Machine.run (step iso) (State.first (created organizationId createdBy body assigneeId parentId)) events = some final) :
    Linked (created organizationId createdBy body assigneeId parentId) final.commits final.row ∧
      (∀ commit ∈ final.commits, Allowed commit.before.status commit.after.status ∧ Timed commit) ∧
      (Machine.Meets (step iso) (Serial iso) (State.first (created organizationId createdBy body assigneeId parentId)) events →
        Truthful iso (created organizationId createdBy body assigneeId parentId) final) := by
  have fits : Matches (created organizationId createdBy body assigneeId parentId) := by
    cases assigneeId <;> simp [Matches,created]
  have kept : Kept (created organizationId createdBy body assigneeId parentId) final :=
    run_invariant_always (step iso) (fun _ _ _ => step_kept) (kept_first fits) ran
  refine ⟨kept.linked,fun commit member => ⟨kept.allowed commit member,kept.timed commit member⟩,fun serial settled => ?_⟩
  have behind : Behind iso final :=
    run_invariant (step iso) (fun _ _ _ => step_behind) (Or.inl ⟨(fun _ _ _ is => by cases is),rfl⟩) serial ran
  rcases behind with ⟨_,exact'⟩ | ⟨writer,fields,actorId,wrote,_⟩
  · exact ⟨exact',exact' ▸ replay_truth kept.linked⟩
  · exact absurd wrote (settled writer fields actorId)

def asking : Changes := ⟨none,none,none,none,none,none,none,none,none⟩

def paint : TaskRow := created "ev" "ayse" "paint" none none

def renamed : List Event :=
  [.reads 0 { asking with body := some "paint twice" } (some "ayse"),.writes 0 5 true,.records 0 true]

theorem history_truthful_renamed : ∃ final, Machine.run (step toString) (State.first paint) renamed = some final ∧
    Linked paint final.commits final.row ∧ Truthful toString paint final := by
  have ends : (Machine.run (step toString) (State.first paint) renamed).isSome = true := by decide +kernel
  obtain ⟨final,ran⟩ := isSome_iff_exists.mp ends
  obtain ⟨linked,_,truthful⟩ := history_truthful ran
  refine ⟨final,ran,linked,truthful ⟨trivial,?_,rfl,trivial⟩⟩
  intro before changes status actorId reading
  cases reading
  refine ⟨rfl,fun request fields actor wrote => ?_⟩
  simp only [State.at,State.first,update_apply] at wrote
  split at wrote <;> cases wrote

/-- Two people each change a field of a task they have read before: the second one's history names the
first one's change as well. -/
theorem history_untruthful : ∃ final, Machine.run (step toString) (State.first paint)
    [.reads 0 { asking with body := some "paint twice" } (some "ayse"),.reads 1 { asking with priority := some .high } (some "can"),
      .writes 0 5 true,.records 0 true,.writes 1 6 true,.records 1 true] = some final ∧
    Settled final ∧ final.activity ≠ truth toString final.commits := by
  have lies : (Machine.run (step toString) (State.first paint)
      [.reads 0 { asking with body := some "paint twice" } (some "ayse"),.reads 1 { asking with priority := some .high } (some "can"),
        .writes 0 5 true,.records 0 true,.writes 1 6 true,.records 1 true]).any (fun final =>
      decide (final.activity ≠ truth toString final.commits)) = true := by decide +kernel
  obtain ⟨final,ran,lies⟩ := (any_eq_true _ _).mp lies
  refine ⟨final,ran,fun request fields actorId => ?_,of_decide_eq_true lies⟩
  cases ran
  simp only [State.at,State.first,update_apply]
  split
  · nofun
  · split <;> nofun

end Depsis.Desk.History
