import Depsis.Events.Stream

/-! What the event stream delivers. To those allowed only, in every run; and every change in the end,
where the watermark has not passed it by.
-/
namespace Depsis.Events

open Depsis.Foundation List AList Function Machine

variable {state next final : State} {event : Event} {subscriber : Subscriber} {key : Key} {row : Row}

theorem pumps_cases (taken : step state .pumps = some next) :
    ∃ organizations, state.ticking = some (none,organizations) ∧ next = pump state organizations := by
  simp only [step] at taken
  split at taken
  next organizations ticking => exact ⟨organizations,ticking,(Option.some.inj taken).symm⟩
  next => cases taken

variable {count : Nat} {page : List (Key × Row)} {rest : List String} {writes : Table Key (Option Row)}

theorem answers_cases (taken : step state (.answers page) = some next) :
    ∃ pump rest query todo, state.ticking = some (some pump,rest) ∧ pump.todo = query::todo ∧ pump.answer = none ∧
      Polling.Page 200 Row.updatedAt (query.selects pump.organizationId) pump.since.raw state.rows page ∧
      next = { state with ticking := some (some { pump with answer := some page },rest) } := by
  simp only [step] at taken
  split at taken
  next pump rest ticking =>
    split at taken
    next query todo asked waiting =>
      obtain ⟨answered,taken⟩ := of_when taken
      exact ⟨pump,rest,query,todo,ticking,asked,waiting,answered,(Option.some.inj taken).symm⟩
    next => cases taken
  next => cases taken

theorem emits_cases (taken : step state .emits = some next) :
    ∃ pump rest query todo page, state.ticking = some (some pump,rest) ∧ pump.todo = query::todo ∧
      pump.answer = some page ∧ next = emit state pump rest query todo page := by
  simp only [step] at taken
  split at taken
  next pump rest ticking =>
    split at taken
    next query todo page asked answered =>
      exact ⟨pump,rest,query,todo,page,ticking,asked,answered,(Option.some.inj taken).symm⟩
    next => cases taken
  next => cases taken

theorem ends_cases (taken : step state .ends = some next) :
    ∃ pump rest, state.ticking = some (some pump,rest) ∧ pump.todo = [] ∧ next = finish state pump rest := by
  simp only [step] at taken
  split at taken
  next pump rest ticking =>
    obtain ⟨done,taken⟩ := of_when taken
    exact ⟨pump,rest,ticking,done,(Option.some.inj taken).symm⟩
  next => cases taken

theorem fails_cases (taken : step state .fails = some next) : next = { state with ticking := none } := by
  obtain ⟨ticking,-,same⟩ := Option.map_eq_some_iff.mp taken
  exact same.symm

theorem ticks_cases (taken : step state .ticks = some next) :
    next = state ∨ next = { state with
      ticking := some (none,unique (state.subscribers.map (fun subscriber => subscriber.organizationId))) } := by
  simp only [step] at taken
  obtain ⟨-,taken⟩ := of_unless taken
  split at taken
  next => exact .inl (Option.some.inj taken).symm
  next => exact .inr (Option.some.inj taken).symm

theorem subscribes_cases {organizationId userId : String} {isAdmin : Bool} {now : Nat} {lastEventId : Option Nat}
    (taken : step state (.subscribes organizationId userId isAdmin now lastEventId) = some next) :
    next = state ∨ next = subscribe state organizationId userId isAdmin now (resumeFrom now lastEventId) := by
  simp only [step] at taken
  split at taken
  next => exact .inl (Option.some.inj taken).symm
  next => exact .inr (Option.some.inj taken).symm

theorem pump_cases (state : State) (organizations : List String) :
    (∃ ticking, pump state organizations = { state with ticking := ticking } ∧ ∀ begun rest, ticking ≠ some (some begun,rest)) ∨
      ∃ organizationId rest since, state.watermark organizationId = some since ∧
        pump state organizations = { state with ticking := some (some (opened organizationId since
          (state.subscribers.filter (fun subscriber => subscriber.organizationId = organizationId))),rest) } := by
  cases organizations with
  | nil => exact .inl ⟨_,rfl,nofun⟩
  | cons organizationId rest =>
    simp only [pump]
    split
    next => exact .inl ⟨_,rfl,nofun⟩
    next since seeded =>
      split
      next => exact .inl ⟨_,rfl,nofun⟩
      next => exact .inr ⟨organizationId,rest,since,seeded,rfl⟩

def Allowed (delivery : Delivery) : Prop :=
  delivery.row.organizationId = delivery.subscriber.organizationId ∧
    (delivery.event.type = .job → delivery.subscriber.isAdmin = true) ∧
    (delivery.event.type = .transfer → delivery.row.createdBy = some delivery.subscriber.userId)

structure Aimed (pump : Pump) : Prop where
  listeners : ∀ listener ∈ pump.listeners, listener.organizationId = pump.organizationId
  answered : ∀ query todo page, pump.todo = query::todo → pump.answer = some page →
    ∀ entry ∈ page, query.selects pump.organizationId entry.1 entry.2 = true ∧ pump.since.raw < entry.2.updatedAt

structure Discreet (state : State) : Prop where
  sent : ∀ delivery ∈ state.delivered, Allowed delivery
  aimed : ∀ pump rest, state.ticking = some (some pump,rest) → Aimed pump

theorem mem_readers {query : Query} {listeners : List Subscriber} {reader : Subscriber}
    (member : reader ∈ query.readers listeners) :
    reader ∈ listeners ∧ (query.type = .job → reader.isAdmin = true) ∧
      ∀ userId, query = .transfers userId → reader.userId = userId := by
  cases query with
  | jobs =>
    obtain ⟨inside,admin⟩ := mem_filter.mp member
    exact ⟨inside,fun _ => admin,nofun⟩
  | transfers userId =>
    obtain ⟨inside,same⟩ := mem_filter.mp member
    refine ⟨inside,nofun,fun other equal => ?_⟩
    cases equal
    simpa using same

theorem allowed_emitted {pump : Pump} (aimed : Aimed pump) {query : Query} {todo : List Query}
    (asked : pump.todo = query::todo) (answered : pump.answer = some page) {reader : Subscriber}
    (reads : reader ∈ query.readers pump.listeners) {entry : Key × Row} (member : entry ∈ page) :
    Allowed ⟨reader,query,entry.1,entry.2⟩ := by
  obtain ⟨inside,admin,owner⟩ := mem_readers reads
  have selected := (aimed.answered query todo page asked answered entry member).1
  simp only [Query.selects,Bool.and_eq_true,decide_eq_true_eq] at selected
  refine ⟨selected.1.trans (aimed.listeners reader inside).symm,admin,fun transfer => ?_⟩
  cases query with
  | jobs => cases transfer
  | transfers userId =>
    obtain ⟨-,-,made⟩ := by simpa using selected
    rw [owner userId rfl]
    exact made

theorem discreet_step (discreet : Discreet state) (taken : step state event = some next) : Discreet next := by
  cases event with
  | commits writes => cases taken; exact ⟨discreet.sent,discreet.aimed⟩
  | subscribes organizationId userId isAdmin now lastEventId =>
    rcases subscribes_cases taken with rfl | rfl
    · exact discreet
    · exact ⟨discreet.sent,discreet.aimed⟩
  | leaves left => cases taken; exact ⟨discreet.sent,discreet.aimed⟩
  | ticks =>
    rcases ticks_cases taken with rfl | rfl
    · exact discreet
    · exact ⟨discreet.sent,nofun⟩
  | pumps =>
    obtain ⟨organizations,-,rfl⟩ := pumps_cases taken
    rcases pump_cases state organizations with ⟨ticking,same,none⟩ | ⟨organizationId,rest,since,-,same⟩
    · rw [same]
      exact ⟨discreet.sent,fun begun others ticks => absurd ticks (none begun others)⟩
    · rw [same]
      refine ⟨discreet.sent,fun begun others ticks => ?_⟩
      cases ticks
      refine ⟨fun listener member => ?_,nofun⟩
      exact of_decide_eq_true (mem_filter.mp member).2
  | answers page =>
    obtain ⟨pump,rest,query,todo,ticking,asked,-,answered,rfl⟩ := answers_cases taken
    have aimed := discreet.aimed pump rest ticking
    refine ⟨discreet.sent,fun begun others ticks => ?_⟩
    cases ticks
    refine ⟨aimed.listeners,fun other todo' page' asks same entry member => ?_⟩
    cases same
    cases asked.symm.trans asks
    exact (answered.newer member).2
  | emits =>
    obtain ⟨pump,rest,query,todo,page,ticking,asked,answered,rfl⟩ := emits_cases taken
    have aimed := discreet.aimed pump rest ticking
    refine ⟨fun delivery member => ?_,fun begun others ticks => ?_⟩
    · rcases mem_append.mp member with before | fresh
      · exact discreet.sent delivery before
      · obtain ⟨entry,inside,made⟩ := mem_flatMap.mp fresh
        obtain ⟨reader,reads,rfl⟩ := mem_map.mp made
        exact allowed_emitted aimed asked answered (mem_filter.mp reads).1 inside
    · cases ticks
      exact ⟨aimed.listeners,nofun⟩
  | ends =>
    obtain ⟨pump,rest,-,-,rfl⟩ := ends_cases taken
    exact ⟨discreet.sent,nofun⟩
  | fails =>
    rw [fails_cases taken]
    exact ⟨discreet.sent,nofun⟩

/-! Debts. A stream is owed a row's last change until a pump has sent it. -/

theorem mem_debts {subscribers : List Subscriber} :
    (subscriber,key) ∈ debts subscribers writes ↔
      ∃ row, writes.lookup key = some (some row) ∧ subscriber ∈ subscribers ∧ subscriber.entitled key row = true := by
  constructor
  · intro owed
    obtain ⟨⟨other,value⟩,written,made⟩ := mem_flatMap.mp owed
    cases value with
    | none => cases made
    | some row =>
      obtain ⟨reader,reads,same⟩ := mem_map.mp made
      cases same
      obtain ⟨inside,entitled⟩ := mem_filter.mp reads
      exact ⟨row,mem_rows.mp written,inside,entitled⟩
  · rintro ⟨row,written,inside,entitled⟩
    refine mem_flatMap.mpr ⟨(key,some row),mem_rows.mpr written,?_⟩
    exact mem_map.mpr ⟨subscriber,mem_filter.mpr ⟨inside,entitled⟩,rfl⟩

theorem delivered_grows (taken : step state event = some next) : ∃ fresh, next.delivered = state.delivered ++ fresh := by
  have same (equal : next.delivered = state.delivered) : ∃ fresh, next.delivered = state.delivered ++ fresh :=
    ⟨[],by rw [equal,append_nil]⟩
  cases event with
  | commits writes => cases taken; exact same rfl
  | subscribes organizationId userId isAdmin now lastEventId =>
    rcases subscribes_cases taken with rfl | rfl <;> exact same rfl
  | leaves left => cases taken; exact same rfl
  | ticks => rcases ticks_cases taken with rfl | rfl <;> exact same rfl
  | pumps =>
    obtain ⟨organizations,-,rfl⟩ := pumps_cases taken
    rcases pump_cases state organizations with ⟨ticking,equal,-⟩ | ⟨organizationId,rest,since,-,equal⟩
    all_goals exact same (by rw [equal])
  | answers page =>
    obtain ⟨pump,rest,query,todo,-,-,-,-,rfl⟩ := answers_cases taken
    exact same rfl
  | emits =>
    obtain ⟨pump,rest,query,todo,page,-,-,-,rfl⟩ := emits_cases taken
    exact ⟨_,rfl⟩
  | ends =>
    obtain ⟨pump,rest,-,-,rfl⟩ := ends_cases taken
    exact same rfl
  | fails => exact same (by rw [fails_cases taken])

structure Owes (subscriber : Subscriber) (key : Key) (row : Row) (state : State) : Prop where
  owed : (subscriber,key) ∈ state.owed
  stored : state.rows.lookup key = some row

def Sent (count : Nat) (subscriber : Subscriber) (key : Key) (row : Row) (state : State) : Prop :=
  ∃ delivery ∈ state.delivered.drop count, delivery.subscriber = subscriber ∧ delivery.key = key ∧ delivery.row = row

theorem sent_step (sent : Sent count subscriber key row state) (taken : step state event = some next) :
    Sent count subscriber key row next := by
  obtain ⟨delivery,member,same⟩ := sent
  obtain ⟨fresh,grown⟩ := delivered_grows taken
  refine ⟨delivery,?_,same⟩
  rw [grown,drop_append]
  exact mem_append_left _ member

theorem owes_step (owes : Owes subscriber key row state) (counted : count ≤ state.delivered.length)
    (lasting : Lasting subscriber key event) (taken : step state event = some next) :
    Owes subscriber key row next ∨ Sent count subscriber key row next := by
  obtain ⟨owed,stored⟩ := owes
  cases event with
  | commits writes =>
    cases taken
    refine .inl ⟨mem_append_left _ (mem_filter.mpr ⟨owed,?_⟩),?_⟩
    · rw [show writes.lookup key = none from lasting]
      rfl
    · exact (ReadCommitted.lookup_overlay_none lasting).trans stored
  | subscribes organizationId userId isAdmin now lastEventId =>
    rcases subscribes_cases taken with rfl | rfl <;> exact .inl ⟨owed,stored⟩
  | leaves left =>
    cases taken
    exact .inl ⟨mem_filter.mpr ⟨owed,decide_eq_true (Ne.symm lasting)⟩,stored⟩
  | ticks => rcases ticks_cases taken with rfl | rfl <;> exact .inl ⟨owed,stored⟩
  | pumps =>
    obtain ⟨organizations,-,rfl⟩ := pumps_cases taken
    rcases pump_cases state organizations with ⟨ticking,equal,-⟩ | ⟨organizationId,rest,since,-,equal⟩
    all_goals exact .inl (by rw [equal]; exact ⟨owed,stored⟩)
  | answers page =>
    obtain ⟨pump,rest,query,todo,-,-,-,-,rfl⟩ := answers_cases taken
    exact .inl ⟨owed,stored⟩
  | emits =>
    obtain ⟨pump,rest,query,todo,page,-,-,-,rfl⟩ := emits_cases taken
    by_cases read : (subscriber,key) ∈ (emit state pump rest query todo page).owed
    · exact .inl ⟨read,stored⟩
    · refine .inr ?_
      have paid := mt (fun kept => mem_filter.mpr ⟨owed,kept⟩) read
      simp only [Bool.not_eq_true',Bool.not_eq_false,Bool.and_eq_true,contains_iff_mem,any_eq_true,
        decide_eq_true_eq] at paid
      obtain ⟨reads,entry,member,rfl,current⟩ := paid
      cases stored.symm.trans current
      refine ⟨⟨subscriber,query,entry.1,entry.2⟩,?_,rfl,rfl,rfl⟩
      change _ ∈ (state.delivered ++ _).drop count
      rw [drop_append_of_le_length counted]
      refine mem_append_right _ (mem_flatMap.mpr ⟨entry,member,?_⟩)
      exact mem_map.mpr ⟨subscriber,reads,rfl⟩
  | ends =>
    obtain ⟨pump,rest,-,-,rfl⟩ := ends_cases taken
    exact .inl ⟨owed,stored⟩
  | fails => exact .inl (by rw [fails_cases taken]; exact ⟨owed,stored⟩)

structure Sound (state : State) : Prop where
  seeded : ∀ subscriber ∈ state.subscribers, ∃ current, state.watermark subscriber.organizationId = some current
  dated : ∀ organizationId current, state.watermark organizationId = some current → current.date = current.raw / 1000
  owed : ∀ subscriber key, (subscriber,key) ∈ state.owed → subscriber ∈ state.subscribers ∧
    ∃ row, state.rows.lookup key = some row ∧ subscriber.entitled key row = true ∧
      ∀ current, state.watermark subscriber.organizationId = some current → current.raw < row.updatedAt
  pumping : ∀ pump rest, state.ticking = some (some pump,rest) →
    pump.since.date = pump.since.raw / 1000 ∧ pump.newest.date = pump.newest.raw / 1000

theorem mark_dated (date : Nat) : (mark date).date = (mark date).raw / 1000 := by
  simp [mark]

theorem reseeded_some {current : Option Watermark} {now : Nat} {since : Option Nat} {after : Watermark}
    (same : reseeded current now since = some after) :
    (∃ before, current = some before ∧ (after = before ∨ after.date < before.date ∧ after = mark after.date)) ∨
      current = none ∧ after = mark after.date := by
  simp only [reseeded] at same
  split at same
  · cases same; exact .inr ⟨rfl,rfl⟩
  · cases same; exact .inr ⟨rfl,rfl⟩
  · cases same; exact .inl ⟨_,rfl,.inl rfl⟩
  · split at same
    next earlier => cases same; exact .inl ⟨_,rfl,.inr ⟨earlier,rfl⟩⟩
    next => cases same; exact .inl ⟨_,rfl,.inl rfl⟩

theorem fold_advance (page : List (Key × Row)) (newest : Watermark) :
    page.foldl (fun newest entry => advance newest entry.2) newest = newest ∨
      ∃ entry ∈ page, page.foldl (fun newest entry => advance newest entry.2) newest = ⟨entry.2.updatedAt,entry.2.date⟩ := by
  induction page generalizing newest with
  | nil => exact .inl rfl
  | cons entry rest ih =>
    rw [foldl_cons]
    rcases ih (advance newest entry.2) with same | ⟨other,member,same⟩
    · rw [same]
      unfold advance
      split
      · exact .inr ⟨entry,mem_cons_self,rfl⟩
      · exact .inl rfl
    · exact .inr ⟨other,mem_cons_of_mem _ member,same⟩

theorem fold_moves {newest : Watermark} (some : page ≠ [])
    (newer : ∀ entry ∈ page, newest.date ≤ entry.2.date) :
    ∃ entry ∈ page, page.foldl (fun newest entry => advance newest entry.2) newest = ⟨entry.2.updatedAt,entry.2.date⟩ := by
  cases page with
  | nil => exact absurd rfl some
  | cons entry rest =>
    have moved : advance newest entry.2 = ⟨entry.2.updatedAt,entry.2.date⟩ := if_pos (newer entry mem_cons_self)
    rw [foldl_cons,moved]
    rcases fold_advance rest ⟨entry.2.updatedAt,entry.2.date⟩ with same | ⟨other,member,same⟩
    · exact ⟨entry,mem_cons_self,same⟩
    · exact ⟨other,mem_cons_of_mem _ member,same⟩

theorem reseeded_isSome (current : Option Watermark) (now : Nat) (since : Option Nat) :
    ∃ after, reseeded current now since = some after := by
  cases current with
  | none => cases since <;> exact ⟨_,rfl⟩
  | some current =>
    cases since with
    | none => exact ⟨_,rfl⟩
    | some since =>
      simp only [reseeded,Option.map_some]
      split <;> exact ⟨_,rfl⟩

theorem sound_commits (sound : Sound state) (timely : Timely state (.commits writes)) :
    Sound (commit state writes) := by
  refine ⟨sound.seeded,sound.dated,fun reader changed owed => ?_,sound.pumping⟩
  rcases mem_append.mp owed with before | fresh
  · obtain ⟨owed,unwritten⟩ := mem_filter.mp before
    obtain ⟨inside,old,stored,entitled,ahead⟩ := sound.owed reader changed owed
    refine ⟨inside,old,?_,entitled,ahead⟩
    exact (ReadCommitted.lookup_overlay_none (by simpa using unwritten)).trans stored
  · obtain ⟨written,here,inside,entitled⟩ := mem_debts.mp fresh
    refine ⟨inside,written,ReadCommitted.lookup_overlay_some here,entitled,fun current seeded => ?_⟩
    refine timely (changed,some written) (mem_rows.mpr here) written rfl reader inside entitled current ?_
    simp only [Subscriber.entitled,Bool.and_eq_true,decide_eq_true_eq] at entitled
    rw [entitled.1]
    exact seeded

theorem sound_subscribe (sound : Sound state) (organizationId userId : String) (isAdmin : Bool) (now : Nat)
    (since : Option Nat) : Sound (subscribe state organizationId userId isAdmin now since) := by
  obtain ⟨after,reseeds⟩ := reseeded_isSome (state.watermark organizationId) now since
  have watermark : (subscribe state organizationId userId isAdmin now since).watermark =
      Function.update state.watermark organizationId (some after) := by
    rw [← reseeds]
    rfl
  constructor
  · intro reader member
    rw [watermark]
    by_cases same : reader.organizationId = organizationId
    · exact ⟨after,by rw [same,update_self]⟩
    · rw [update_of_ne same]
      rcases mem_append.mp member with before | fresh
      · exact sound.seeded reader before
      · cases mem_singleton.mp fresh
        exact absurd rfl same
  · intro other current seeded
    rw [watermark] at seeded
    by_cases same : other = organizationId
    · subst same
      rw [update_self] at seeded
      cases seeded
      rcases reseeded_some reseeds with ⟨before,here,rfl | ⟨-,marked⟩⟩ | ⟨-,marked⟩
      · exact sound.dated other after here
      all_goals
        rw [marked]
        exact mark_dated _
    · rw [update_of_ne same] at seeded
      exact sound.dated other current seeded
  · intro reader changed owed
    obtain ⟨inside,old,stored,entitled,ahead⟩ := sound.owed reader changed owed
    refine ⟨mem_append_left _ inside,old,stored,entitled,fun current seeded => ?_⟩
    rw [watermark] at seeded
    by_cases same : reader.organizationId = organizationId
    · rw [same,update_self] at seeded
      cases seeded
      obtain ⟨current,here⟩ := sound.seeded reader inside
      have behind := ahead current here
      rw [same] at here
      rcases reseeded_some reseeds with ⟨before,there,rfl | ⟨earlier,marked⟩⟩ | ⟨none,-⟩
      · cases here.symm.trans there
        exact behind
      · cases here.symm.trans there
        -- a stream that resumes can only move the watermark back
        have dated := sound.dated organizationId current here
        have raw : after.raw = after.date * 1000 := congrArg Watermark.raw marked
        omega
      · rw [here] at none
        cases none
    · rw [update_of_ne same] at seeded
      exact ahead current seeded
  · exact sound.pumping

theorem sound_leave (sound : Sound state) (left : Nat) : Sound (leave state left) := by
  have watermark {organizationId : String} {current : Watermark}
      (seeded : (leave state left).watermark organizationId = some current) :
      state.watermark organizationId = some current := by
    simp only [leave] at seeded
    split at seeded
    next => cases seeded
    next => exact seeded
  constructor
  · intro reader member
    obtain ⟨inside,-⟩ := mem_filter.mp member
    obtain ⟨current,seeded⟩ := sound.seeded reader inside
    refine ⟨current,?_⟩
    simp only [leave]
    split
    next empty =>
      rw [List.isEmpty_iff] at empty
      have member : reader ∈ state.subscribers.filter (fun subscriber => subscriber.key ≠ left) := member
      rw [empty] at member
      cases member
    next => exact seeded
  · exact fun organizationId current seeded => sound.dated organizationId current (watermark seeded)
  · intro reader changed owed
    obtain ⟨owed,stays⟩ := mem_filter.mp owed
    obtain ⟨inside,old,stored,entitled,ahead⟩ := sound.owed reader changed owed
    exact ⟨mem_filter.mpr ⟨inside,stays⟩,old,stored,entitled,fun current seeded => ahead current (watermark seeded)⟩
  · exact sound.pumping

theorem sound_finish (sound : Sound state) (timely : Timely state .ends) {pump : Pump}
    (ticking : state.ticking = some (some pump,rest)) : Sound (finish state pump rest) := by
  constructor
  · intro reader member
    obtain ⟨current,seeded⟩ := sound.seeded reader member
    by_cases same : reader.organizationId = pump.organizationId
    · exact ⟨pump.newest,by rw [same]; exact update_self _ _ _⟩
    · exact ⟨current,(update_of_ne same _ _).trans seeded⟩
  · intro organizationId current seeded
    by_cases same : organizationId = pump.organizationId
    · subst same
      cases (update_self _ _ _).symm.trans seeded
      exact (sound.pumping pump rest ticking).2
    · exact sound.dated organizationId current ((update_of_ne same _ _).symm.trans seeded)
  · intro reader changed owed
    obtain ⟨inside,old,stored,entitled,ahead⟩ := sound.owed reader changed owed
    refine ⟨inside,old,stored,entitled,fun current seeded => ?_⟩
    by_cases same : reader.organizationId = pump.organizationId
    · have moved : current = pump.newest := by
        have seeded : Function.update state.watermark pump.organizationId (some pump.newest) reader.organizationId =
          some current := seeded
        rw [same,update_self] at seeded
        exact (Option.some.inj seeded).symm
      rw [moved]
      exact timely (some pump,rest) ticking pump rfl (reader,changed) owed same old stored
    · exact ahead current ((update_of_ne same _ _).symm.trans seeded)
  · exact nofun

theorem sound_step (sound : Sound state) (timely : Timely state event) (taken : step state event = some next) :
    Sound next := by
  cases event with
  | commits writes => cases taken; exact sound_commits sound timely
  | subscribes organizationId userId isAdmin now lastEventId =>
    rcases subscribes_cases taken with rfl | rfl
    · exact sound
    · exact sound_subscribe sound organizationId userId isAdmin now _
  | leaves left => cases taken; exact sound_leave sound left
  | ticks =>
    rcases ticks_cases taken with rfl | rfl
    · exact sound
    · exact ⟨sound.seeded,sound.dated,sound.owed,nofun⟩
  | pumps =>
    obtain ⟨organizations,-,rfl⟩ := pumps_cases taken
    rcases pump_cases state organizations with ⟨ticking,same,none⟩ | ⟨organizationId,rest,since,seeded,same⟩
    · rw [same]
      exact ⟨sound.seeded,sound.dated,sound.owed,fun begun others ticks => absurd ticks (none begun others)⟩
    · rw [same]
      refine ⟨sound.seeded,sound.dated,sound.owed,fun begun others ticks => ?_⟩
      cases ticks
      exact ⟨sound.dated organizationId since seeded,sound.dated organizationId since seeded⟩
  | answers page =>
    obtain ⟨pump,rest,query,todo,ticking,-,-,-,rfl⟩ := answers_cases taken
    refine ⟨sound.seeded,sound.dated,sound.owed,fun begun others ticks => ?_⟩
    cases ticks
    exact sound.pumping pump rest ticking
  | emits =>
    obtain ⟨pump,rest,query,todo,page,ticking,-,-,rfl⟩ := emits_cases taken
    refine ⟨sound.seeded,sound.dated,fun reader changed owed => ?_,fun begun others ticks => ?_⟩
    · exact sound.owed reader changed (mem_of_mem_filter owed)
    · cases ticks
      obtain ⟨since,newest⟩ := sound.pumping pump rest ticking
      refine ⟨since,?_⟩
      rcases fold_advance page pump.newest with same | ⟨entry,-,same⟩
      · exact (congrArg Watermark.date same).trans (newest.trans (congrArg (fun mark => mark.raw / 1000) same.symm))
      · exact (congrArg Watermark.date same).trans (congrArg (fun mark => mark.raw / 1000) same.symm)
  | ends =>
    obtain ⟨pump,rest,ticking,-,rfl⟩ := ends_cases taken
    exact sound_finish sound timely ticking
  | fails =>
    rw [fails_cases taken]
    exact ⟨sound.seeded,sound.dated,sound.owed,nofun⟩

/-! How soon. Each pump that comes to its end without sending the row leaves one row fewer before it. -/

def Subscriber.query (subscriber : Subscriber) (key : Key) : Query :=
  if key.source = .uploadSessions then .transfers subscriber.userId else .jobs

theorem selects_entitled (entitled : subscriber.entitled key row = true) :
    (subscriber.query key).selects subscriber.organizationId key row = true := by
  simp only [Subscriber.entitled,Bool.and_eq_true,decide_eq_true_eq] at entitled
  by_cases uploads : key.source = .uploadSessions
  · simpa [Subscriber.query,Query.selects,uploads] using entitled
  · simp [Subscriber.query,Query.selects,uploads,entitled.1]

theorem query_asked {listeners : List Subscriber} {since : Watermark} (entitled : subscriber.entitled key row = true)
    (listens : subscriber ∈ listeners) :
    subscriber.query key ∈ (opened subscriber.organizationId since listeners).todo := by
  simp only [Subscriber.entitled,Bool.and_eq_true,decide_eq_true_eq] at entitled
  by_cases uploads : key.source = .uploadSessions
  · rw [Subscriber.query,if_pos uploads]
    refine mem_append_right _ (mem_map.mpr ⟨subscriber.userId,?_,rfl⟩)
    have collected := (@FirstSeen.keys_group String String _ id [] _ subscriber.userId).mpr
      (.inr (mem_map.mpr ⟨subscriber.userId,mem_map.mpr ⟨subscriber,listens,rfl⟩,rfl⟩))
    simpa [unique] using collected
  · rw [Subscriber.query,if_neg uploads]
    have admin : subscriber.isAdmin = true := by simpa [uploads] using entitled.2
    refine mem_append_left _ ?_
    rw [if_pos (any_eq_true.mpr ⟨subscriber,listens,admin⟩)]
    exact mem_singleton.mpr rfl

section

variable (subscriber key row) (start bound : Nat)

def Low (state : State) (moment : Nat) : Prop :=
  state.completed.count subscriber.organizationId + Polling.span Row.updatedAt state.rows moment row.updatedAt ≤ start + bound

structure Pacing (state : State) (pump : Pump) : Prop where
  current : state.watermark subscriber.organizationId = some pump.since
  listens : subscriber ∈ pump.listeners
  answered : ∀ page, pump.answer = some page → ∀ entry ∈ page, Low subscriber row start bound state entry.2.updatedAt
  progress : Low subscriber row start bound state pump.newest.raw ∨
    pump.newest = pump.since ∧ subscriber.query key ∈ pump.todo ∧
      ∀ todo page, pump.todo = subscriber.query key::todo → pump.answer = some page → page ≠ []

structure Chase (state : State) : Prop where
  owes : Owes subscriber key row state
  few : ∀ moment, Polling.span Row.updatedAt state.rows moment row.updatedAt ≤ bound
  paced : ∀ current, state.watermark subscriber.organizationId = some current →
    Low subscriber row start (bound+1) state current.raw
  pumping : ∀ pump rest, state.ticking = some (some pump,rest) → pump.organizationId = subscriber.organizationId →
    state.completed.count subscriber.organizationId = start ∨ Pacing subscriber key row start bound state pump

end

variable {start bound : Nat}

theorem Low.same {room moment : Nat} (low : Low subscriber row start room state moment) (rows : next.rows = state.rows)
    (completed : next.completed = state.completed) : Low subscriber row start room next moment := by
  rw [Low,rows,completed]
  exact low

theorem span_disturbed {rows : Table Key Row}
    (undisturbed : Undisturbed subscriber key row (.commits writes)) (moment : Nat) :
    Polling.span Row.updatedAt (ReadCommitted.overlay rows writes) moment row.updatedAt ≤
      Polling.span Row.updatedAt rows moment row.updatedAt := by
  refine Polling.span_le moment (fun other found stored newer older => ⟨?_,newer⟩)
  cases written : writes.lookup other with
  | none => exact (ReadCommitted.lookup_overlay_none written).symm.trans stored
  | some value =>
    rw [ReadCommitted.lookup_overlay_some written] at stored
    have later := (undisturbed other value written).2 found stored
    omega

theorem chase_commits (chase : Chase subscriber key row start bound state)
    (undisturbed : Undisturbed subscriber key row (.commits writes)) (owes : Owes subscriber key row (commit state writes)) :
    Chase subscriber key row start bound (commit state writes) := by
  have fewer {room moment : Nat} (low : Low subscriber row start room state moment) :
      Low subscriber row start room (commit state writes) moment :=
    Nat.le_trans (Nat.add_le_add_left (span_disturbed undisturbed moment) _) low
  refine ⟨owes,fun moment => Nat.le_trans (span_disturbed undisturbed moment) (chase.few moment),
    fun current seeded => fewer (chase.paced current seeded),fun pump rest ticking same => ?_⟩
  refine (chase.pumping pump rest ticking same).imp_right (fun pacing => ?_)
  exact ⟨pacing.current,pacing.listens,fun page answer entry member => fewer (pacing.answered page answer entry member),
    pacing.progress.imp_left fewer⟩

theorem watermark_late (sound : Sound state) (chase : Chase subscriber key row start bound state)
    {organizationId userId : String} {isAdmin : Bool} {now : Nat} {since : Option Nat}
    (late : row.updatedAt ≤ (now - MAX_REWIND_MS) * 1000) :
    (subscribe state organizationId userId isAdmin now since).watermark subscriber.organizationId =
      state.watermark subscriber.organizationId := by
  by_cases same : subscriber.organizationId = organizationId
  · obtain ⟨inside,old,stored,-,ahead⟩ := sound.owed subscriber key chase.owes.owed
    cases chase.owes.stored.symm.trans stored
    obtain ⟨current,seeded⟩ := sound.seeded subscriber inside
    have behind := ahead current seeded
    have dated := sound.dated subscriber.organizationId current seeded
    subst same
    refine (update_self _ _ _).trans ?_
    rw [seeded]
    cases since with
    | none => rfl
    | some since =>
      simp only [reseeded,Option.map_some]
      rw [if_neg (by omega)]
  · exact update_of_ne same _ _

theorem watermark_leave (sound : Sound state) (chase : Chase subscriber key row start bound state) {left : Nat}
    (stays : left ≠ subscriber.key) :
    (leave state left).watermark subscriber.organizationId = state.watermark subscriber.organizationId := by
  have inside := (sound.owed subscriber key chase.owes.owed).1
  have stays : subscriber ∈ state.subscribers.filter (fun subscriber => subscriber.key ≠ left) :=
    mem_filter.mpr ⟨inside,decide_eq_true (Ne.symm stays)⟩
  simp only [leave]
  rw [if_neg]
  intro empty
  rw [isEmpty_iff.mp empty] at stays
  cases stays

theorem Chase.aside (chase : Chase subscriber key row start bound state) (owes : Owes subscriber key row next)
    (rows : next.rows = state.rows) (completed : next.completed = state.completed)
    (watermark : next.watermark subscriber.organizationId = state.watermark subscriber.organizationId)
    (ticking : ∀ pump rest, next.ticking = some (some pump,rest) → state.ticking = some (some pump,rest)) :
    Chase subscriber key row start bound next := by
  refine ⟨owes,?_,?_,fun pump rest ticks same => ?_⟩
  · rw [rows]
    exact chase.few
  · intro current seeded
    rw [watermark] at seeded
    exact (chase.paced current seeded).same rows completed
  · rw [completed]
    refine (chase.pumping pump rest (ticking pump rest ticks) same).imp_right (fun pacing => ⟨?_,pacing.listens,?_,?_⟩)
    · rw [watermark]
      exact pacing.current
    · intro page answer entry member
      exact (pacing.answered page answer entry member).same rows completed
    · exact pacing.progress.imp_left (fun low => low.same rows completed)

theorem chase_begins (sound : Sound state) (chase : Chase subscriber key row start bound state) {organizationId : String}
    {since : Watermark} (seeded : state.watermark organizationId = some since) :
    Chase subscriber key row start bound { state with ticking := some (some (opened organizationId since
      (state.subscribers.filter (fun subscriber => subscriber.organizationId = organizationId))),rest) } := by
  refine ⟨⟨chase.owes.owed,chase.owes.stored⟩,chase.few,chase.paced,fun pump others ticks same => .inr ?_⟩
  cases ticks
  have same : organizationId = subscriber.organizationId := same
  subst same
  obtain ⟨inside,old,-,entitled,-⟩ := sound.owed subscriber key chase.owes.owed
  have listens : subscriber ∈ state.subscribers.filter (fun other => other.organizationId = subscriber.organizationId) :=
    mem_filter.mpr ⟨inside,decide_eq_true rfl⟩
  exact ⟨seeded,listens,nofun,.inr ⟨rfl,query_asked entitled listens,nofun⟩⟩

theorem chase_answers (sound : Sound state) (chase : Chase subscriber key row start bound state) {pump : Pump}
    {query : Query} {todo : List Query}
    (ticking : state.ticking = some (some pump,rest)) (asked : pump.todo = query::todo)
    (answered : Polling.Page 200 Row.updatedAt (query.selects pump.organizationId) pump.since.raw state.rows page) :
    Chase subscriber key row start bound
      { state with ticking := some (some { pump with answer := some page },rest) } := by
  refine ⟨⟨chase.owes.owed,chase.owes.stored⟩,chase.few,chase.paced,fun begun others ticks same => ?_⟩
  cases ticks
  refine (chase.pumping pump rest ticking same).imp_right (fun pacing => ?_)
  have same : pump.organizationId = subscriber.organizationId := same
  obtain ⟨-,old,stored,entitled,ahead⟩ := sound.owed subscriber key chase.owes.owed
  cases chase.owes.stored.symm.trans stored
  have behind := ahead pump.since pacing.current
  have paced := chase.paced pump.since pacing.current
  refine ⟨pacing.current,pacing.listens,fun answer read entry member => ?_,?_⟩
  · cases read
    obtain ⟨here,-,newer⟩ := answered.newer member
    -- the row that was read, or the one that is chased, is left behind
    have fewer : Polling.span Row.updatedAt state.rows entry.2.updatedAt row.updatedAt <
        Polling.span Row.updatedAt state.rows pump.since.raw row.updatedAt := by
      by_cases before : entry.2.updatedAt ≤ row.updatedAt
      · exact Polling.span_lt here newer before (Nat.le_refl _)
      · exact Polling.span_lt chase.owes.stored behind (Nat.le_refl _) (by omega)
    unfold Low at paced ⊢
    change state.completed.count _ + Polling.span Row.updatedAt state.rows _ _ ≤ _
    omega
  · refine pacing.progress.imp_right (fun ⟨unmoved,waiting,_⟩ => ⟨unmoved,waiting,fun others' read heads answer empty => ?_⟩)
    cases answer
    cases asked.symm.trans heads
    subst empty
    have full := answered.missed chase.owes.stored (by rw [same]; exact selects_entitled entitled) behind not_mem_nil
    cases full

theorem chase_emits (sound : Sound state) (discreet : Discreet state) (chase : Chase subscriber key row start bound state)
    {pump : Pump} {query : Query} {todo : List Query}
    (ticking : state.ticking = some (some pump,rest)) (asked : pump.todo = query::todo) (answer : pump.answer = some page)
    (owes : Owes subscriber key row (emit state pump rest query todo page)) :
    Chase subscriber key row start bound (emit state pump rest query todo page) := by
  refine ⟨owes,chase.few,chase.paced,fun begun others ticks same => ?_⟩
  cases ticks
  refine (chase.pumping pump rest ticking same).imp_right (fun pacing => ?_)
  have low {entry : Key × Row} (member : entry ∈ page) :
      Low subscriber row start bound (emit state pump rest query todo page) entry.2.updatedAt :=
    (pacing.answered page answer entry member).same rfl rfl
  refine ⟨pacing.current,pacing.listens,nofun,?_⟩
  rcases pacing.progress with moved | ⟨unmoved,waiting,some⟩
  · rcases fold_advance page pump.newest with same | ⟨entry,member,same⟩
    · rw [same]
      exact .inl (moved.same rfl rfl)
    · rw [same]
      exact .inl (low member)
  · by_cases mine : query = subscriber.query key
    · subst mine
      obtain ⟨entry,member,same⟩ := fold_moves (some todo page asked answer) (fun entry member => by
        have newer := ((discreet.aimed pump rest ticking).answered _ todo page asked answer entry member).2
        have dated := (sound.pumping pump rest ticking).1
        rw [unmoved,dated]
        exact Nat.div_le_div_right (Nat.le_of_lt newer) : ∀ entry ∈ page, pump.newest.date ≤ entry.2.date)
      rw [same]
      exact .inl (low member)
    · rcases fold_advance page pump.newest with same | ⟨entry,member,same⟩
      · refine .inr ⟨same.trans unmoved,?_,nofun⟩
        rw [asked] at waiting
        exact (mem_cons.mp waiting).resolve_left (Ne.symm mine)
      · rw [same]
        exact .inl (low member)

theorem chase_ends (chase : Chase subscriber key row start bound state) {pump : Pump}
    (ticking : state.ticking = some (some pump,rest)) (done : pump.todo = []) :
    Chase subscriber key row start bound (finish state pump rest) := by
  refine ⟨⟨chase.owes.owed,chase.owes.stored⟩,chase.few,fun current seeded => ?_,nofun⟩
  by_cases same : pump.organizationId = subscriber.organizationId
  · have moved : current = pump.newest := by
      have seeded : Function.update state.watermark pump.organizationId (some pump.newest) subscriber.organizationId =
        some current := seeded
      rw [same,update_self] at seeded
      exact (Option.some.inj seeded).symm
    have count : (finish state pump rest).completed.count subscriber.organizationId =
        state.completed.count subscriber.organizationId + 1 := by
      change (state.completed ++ [pump.organizationId]).count _ = _
      rw [count_append,same,count_singleton_self]
    rw [Low,count,moved]
    change _ + Polling.span Row.updatedAt state.rows _ _ ≤ _
    rcases chase.pumping pump rest ticking same with first | pacing
    · have few := chase.few pump.newest.raw
      omega
    · rcases pacing.progress with low | ⟨-,waiting,-⟩
      · unfold Low at low
        omega
      · rw [done] at waiting
        cases waiting
  · have count : (finish state pump rest).completed.count subscriber.organizationId =
        state.completed.count subscriber.organizationId := by
      change (state.completed ++ [pump.organizationId]).count _ = _
      rw [count_append,count_singleton,if_neg (by simpa using same),Nat.add_zero]
    rw [Low,count]
    exact chase.paced current ((update_of_ne (Ne.symm same) _ _).symm.trans seeded)

theorem chase_step (sound : Sound state) (discreet : Discreet state)
    (chase : Chase subscriber key row start bound state) (counted : count ≤ state.delivered.length)
    (undisturbed : Undisturbed subscriber key row event) (taken : step state event = some next) :
    Chase subscriber key row start bound next ∨ Sent count subscriber key row next := by
  have lasting : Lasting subscriber key event := by
    cases event with
    | commits writes =>
      cases written : writes.lookup key with
      | none => exact written
      | some value => exact absurd rfl (undisturbed key value written).1
    | leaves left => exact undisturbed
    | _ => trivial
  refine (owes_step chase.owes counted lasting taken).imp_left (fun owes => ?_)
  cases event with
  | commits writes => cases taken; exact chase_commits chase undisturbed owes
  | subscribes organizationId userId isAdmin now lastEventId =>
    rcases subscribes_cases taken with rfl | rfl
    · exact chase
    · exact chase.aside owes rfl rfl (watermark_late sound chase undisturbed) (fun _ _ ticks => ticks)
  | leaves left =>
    cases taken
    exact chase.aside owes rfl rfl (watermark_leave sound chase undisturbed) (fun _ _ ticks => ticks)
  | ticks =>
    rcases ticks_cases taken with rfl | rfl
    · exact chase
    · exact chase.aside owes rfl rfl rfl nofun
  | pumps =>
    obtain ⟨organizations,-,rfl⟩ := pumps_cases taken
    rcases pump_cases state organizations with ⟨ticking,same,none⟩ | ⟨organizationId,rest,since,seeded,same⟩
    · rw [same] at owes ⊢
      exact chase.aside owes rfl rfl rfl (fun begun others ticks => absurd ticks (none begun others))
    · rw [same]
      exact chase_begins sound chase seeded
  | answers page =>
    obtain ⟨pump,rest,query,todo,ticking,asked,-,answered,rfl⟩ := answers_cases taken
    exact chase_answers sound chase ticking asked answered
  | emits =>
    obtain ⟨pump,rest,query,todo,page,ticking,asked,answer,rfl⟩ := emits_cases taken
    exact chase_emits sound discreet chase ticking asked answer owes
  | ends =>
    obtain ⟨pump,rest,ticking,done,rfl⟩ := ends_cases taken
    exact chase_ends chase ticking done
  | fails =>
    rw [fails_cases taken] at owes ⊢
    exact chase.aside owes rfl rfl rfl nofun

theorem quiet_discreet (rows : Table Key Row) : Discreet (.quiet rows) :=
  ⟨fun _ member => absurd member not_mem_nil,nofun⟩

theorem quiet_sound (rows : Table Key Row) : Sound (.quiet rows) :=
  ⟨fun _ member => absurd member not_mem_nil,nofun,
    fun _ _ member => absurd member not_mem_nil,nofun⟩

theorem discreet_run {rows : Table Key Row} {events : List Event}
    (ran : Machine.run step (.quiet rows) events = some final) : Discreet final :=
  run_invariant_always step (fun _ _ _ held taken => discreet_step held taken) (quiet_discreet rows) ran

theorem sound_run {rows : Table Key Row} {events : List Event} (timely : Machine.Meets step Timely (.quiet rows) events)
    (ran : Machine.run step (.quiet rows) events = some final) : Sound final :=
  run_invariant step (fun _ _ _ held met taken => sound_step held met taken) (quiet_sound rows) timely ran

theorem counted_step (counted : count ≤ state.delivered.length) (taken : step state event = some next) :
    count ≤ next.delivered.length := by
  obtain ⟨fresh,grown⟩ := delivered_grows taken
  rw [grown,length_append]
  omega

theorem owes_run {events : List Event} (owes : Owes subscriber key row state)
    (counted : count ≤ state.delivered.length) (lasting : ∀ event ∈ events, Lasting subscriber key event)
    (ran : Machine.run step state events = some final) :
    count ≤ final.delivered.length ∧ (Owes subscriber key row final ∨ Sent count subscriber key row final) := by
  have kept : ∀ (state : State) (event : Event) (next : State),
      (count ≤ state.delivered.length ∧ (Owes subscriber key row state ∨ Sent count subscriber key row state)) →
      Lasting subscriber key event → step state event = some next →
      count ≤ next.delivered.length ∧ (Owes subscriber key row next ∨ Sent count subscriber key row next) := by
    intro state event next held lasts taken
    refine ⟨counted_step held.1 taken,?_⟩
    rcases held.2 with owes | sent
    · exact owes_step owes held.1 lasts taken
    · exact .inr (sent_step sent taken)
  exact run_invariant step kept ⟨counted,.inl owes⟩
    (meets_of_mem step (fun _ event member => lasting event member) state) ran

theorem chase_run {events : List Event} (discreet : Discreet state) (sound : Sound state)
    (chase : Chase subscriber key row start bound state) (counted : count ≤ state.delivered.length)
    (timely : Machine.Meets step Timely state events) (undisturbed : ∀ event ∈ events, Undisturbed subscriber key row event)
    (ran : Machine.run step state events = some final) :
    Sound final ∧ (Chase subscriber key row start bound final ∨ Sent count subscriber key row final) := by
  have met := meets_and step timely
    (meets_of_mem step (fun _ event member => undisturbed event member) state)
  have kept : ∀ (state : State) (event : Event) (next : State),
      (Discreet state ∧ Sound state ∧ count ≤ state.delivered.length ∧
        (Chase subscriber key row start bound state ∨ Sent count subscriber key row state)) →
      Timely state event ∧ Undisturbed subscriber key row event → step state event = some next →
      Discreet next ∧ Sound next ∧ count ≤ next.delivered.length ∧
        (Chase subscriber key row start bound next ∨ Sent count subscriber key row next) := by
    rintro state event next ⟨discreet,sound,counted,either⟩ met taken
    refine ⟨discreet_step discreet taken,sound_step sound met.1 taken,counted_step counted taken,?_⟩
    rcases either with chase | sent
    · exact chase_step sound discreet chase counted met.2 taken
    · exact .inr (sent_step sent taken)
  obtain ⟨-,sound,-,either⟩ := run_invariant step kept ⟨discreet,sound,counted,.inl chase⟩ met ran
  exact ⟨sound,either⟩

theorem chase_few (sound : Sound state) (chase : Chase subscriber key row start bound state) :
    state.completed.count subscriber.organizationId ≤ start + bound := by
  obtain ⟨inside,old,stored,-,ahead⟩ := sound.owed subscriber key chase.owes.owed
  cases chase.owes.stored.symm.trans stored
  obtain ⟨current,seeded⟩ := sound.seeded subscriber inside
  have paced := chase.paced current seeded
  have left := Polling.span_pos stored (ahead current seeded) (Nat.le_refl _)
  unfold Low at paced
  omega

/-- In every run events reach those allowed only. Where the watermark passes no debt by, the last
change of a row is delivered to an open stream, after no more pumps of its organization than there
are rows, once later transactions and subscriptions only come in its way. -/
theorem stream_delivers {rows : Table Key Row} {events : List Event}
    (ran : Machine.run step (.quiet rows) events = some final) :
    (∀ delivery ∈ final.delivered, Allowed delivery) ∧
      (Machine.Meets step Timely (.quiet rows) events → ∀ before writes middle after subscriber key row changed settled,
        events = before ++ .commits writes :: (middle ++ after) →
        Machine.run step (.quiet rows) (before ++ [.commits writes]) = some changed →
        Machine.run step changed middle = some settled →
        writes.lookup key = some (some row) → subscriber ∈ changed.subscribers → subscriber.entitled key row = true →
        (∀ event ∈ middle, Lasting subscriber key event) → (∀ event ∈ after, Undisturbed subscriber key row event) →
        settled.completed.count subscriber.organizationId + settled.rows.size <
          final.completed.count subscriber.organizationId →
        Sent changed.delivered.length subscriber key row final) := by
  refine ⟨(discreet_run ran).sent,?_⟩
  intro timely before writes middle after subscriber key row changed settled split committed calmed written inside entitled
    lasting undisturbed enough
  rw [show before ++ Event.commits writes :: (middle ++ after) = (before ++ [.commits writes]) ++ (middle ++ after) by simp]
    at split
  subst split
  obtain ⟨metBefore,metRest⟩ := meets_append step timely committed
  obtain ⟨-,metAfter⟩ := meets_append step metRest calmed
  have ranRest : Machine.run step changed (middle ++ after) = some final := by
    rw [run_append,committed] at ran
    exact ran
  have ranAfter : Machine.run step settled after = some final := by
    rw [run_append,calmed] at ranRest
    exact ranRest
  have owes : Owes subscriber key row changed := by
    rw [run_append] at committed
    obtain ⟨reached,-,taken⟩ := Option.bind_eq_some_iff.mp committed
    cases taken
    exact ⟨mem_append_right _ (mem_debts.mpr ⟨row,written,inside,entitled⟩),ReadCommitted.lookup_overlay_some written⟩
  obtain ⟨counted,either⟩ := owes_run owes (Nat.le_refl _) lasting calmed
  rcases either with owes | sent
  · have whole : Machine.run step (.quiet rows) ((before ++ [.commits writes]) ++ middle) = some settled := by
      rw [run_append,committed]
      exact calmed
    have sound := sound_run (meets_append step (by simpa using timely) whole).1 whole
    have few (moment : Nat) : Polling.span Row.updatedAt settled.rows moment row.updatedAt ≤ settled.rows.size := by
      rw [AList.size,← length_map]
      exact length_filter_le _ _
    have chase : Chase subscriber key row (settled.completed.count subscriber.organizationId) settled.rows.size settled := by
      refine ⟨owes,few,fun current seeded => ?_,fun _ _ _ _ => .inl rfl⟩
      have small := few current.raw
      unfold Low
      omega
    obtain ⟨last,chase | sent⟩ := chase_run (discreet_run whole) sound chase counted metAfter undisturbed ranAfter
    · have few := chase_few last chase
      omega
    · exact sent
  · exact run_invariant_always step (fun _ _ _ held taken => sent_step held taken) sent ranAfter

def ayse : Subscriber := ⟨1,"box","ayse",true⟩

def sweepKey : Key := ⟨.jobQueue,"sweep"⟩

def sweepJob : Row := ⟨"box",none,10,.job "acl.sweep" "running" 5 0 none⟩

def upload : Key × Row := (⟨.uploadSessions,"film"⟩,⟨"box",some "ayse",11,.transfer "film.mkv" 100 50 false⟩)

def sweepCommit : Event := .commits ((∅ : Table Key (Option Row)).insert sweepKey (some sweepJob))

def polls (jobs transfers : List (Key × Row)) : List Event :=
  [.ticks,.pumps,.answers jobs,.emits,.answers transfers,.emits,.ends,.pumps]

def opening : List Event := [.subscribes "box" "ayse" true 0 none]

/-- A job's change between two ticks is delivered by the next one. -/
theorem stream_delivers_job : ∃ changed final : State,
    Machine.run step (.quiet ∅) (opening ++ [sweepCommit]) = some changed ∧
      Machine.run step changed (polls [(sweepKey,sweepJob)] [] ++ polls [] []) = some final ∧
      Sent changed.delivered.length ayse sweepKey sweepJob final := by
  have committed : (Machine.run step (.quiet ∅) (opening ++ [sweepCommit])).any (fun changed =>
      decide (ayse ∈ changed.subscribers ∧ changed.completed.count "box" = 0 ∧ changed.rows.size = 1)) = true := by
    decide +kernel
  have ended : (Machine.run step (.quiet ∅) (opening ++ sweepCommit :: ([] ++ (polls [(sweepKey,sweepJob)] [] ++ polls [] [])))).any
      (fun final => decide (1 < final.completed.count "box")) = true := by
    decide +kernel
  obtain ⟨changed,ranBefore,facts⟩ := (Option.any_eq_true _ _).mp committed
  obtain ⟨final,ran,enough⟩ := (Option.any_eq_true _ _).mp ended
  obtain ⟨inside,started,one⟩ := of_decide_eq_true facts
  have rest : Machine.run step changed (polls [(sweepKey,sweepJob)] [] ++ polls [] []) = some final := by
    have whole : opening ++ sweepCommit :: ([] ++ (polls [(sweepKey,sweepJob)] [] ++ polls [] [])) =
      (opening ++ [sweepCommit]) ++ (polls [(sweepKey,sweepJob)] [] ++ polls [] []) := by simp
    rwa [whole,run_append,ranBefore,Option.bind_some] at ran
  refine ⟨changed,final,ranBefore,rest,(stream_delivers ran).2 (by decide +kernel) opening _ [] _ ayse sweepKey sweepJob changed
    changed rfl ranBefore rfl ?_ inside (by decide) nofun (fun event member => ?_) ?_⟩
  · exact lookup_insert _
  · simp only [polls,cons_append,nil_append,mem_cons,not_mem_nil,or_false] at member
    rcases member with rfl | rfl | rfl | rfl | rfl | rfl | rfl | rfl | rfl | rfl | rfl | rfl | rfl | rfl | rfl | rfl <;> trivial
  · have enough := of_decide_eq_true enough
    have box : ayse.organizationId = "box" := rfl
    rw [box,started,one]
    exact enough

structure Stuck (state : State) : Prop where
  old : ∀ entry ∈ state.rows.rows, entry.2.updatedAt ≤ 11
  subscribers : state.subscribers = [ayse]
  idle : state.ticking = none
  passed : state.watermark "box" = some ⟨11,0⟩

theorem stuck_polls (stuck : Stuck state) : ∃ next, Machine.run step state (polls [] []) = some next ∧ Stuck next ∧
    next.delivered = state.delivered ∧ next.completed = state.completed ++ ["box"] := by
  obtain ⟨rows,subscribers,nextId,watermark,ticking,delivered,owed,completed⟩ := state
  obtain ⟨old,rfl,rfl,passed⟩ := stuck
  have asked (query : Query) : Polling.Page 200 Row.updatedAt (query.selects "box") 11 rows [] := Polling.page_nil old
  have seeded : watermark "box" = some ⟨11,0⟩ := passed
  refine ⟨⟨rows,[ayse],nextId,Function.update watermark "box" (some ⟨11,0⟩),none,delivered,owed,completed ++ ["box"]⟩,?_,
    ⟨old,rfl,rfl,?_⟩,rfl,rfl⟩
  rotate_left
  · exact update_self "box" (some ⟨11,0⟩) watermark
  simp [polls,step,pump,seeded,unique,FirstSeen.add,ayse,opened,asked,emit,finish,Query.readers]

theorem stuck_many (stuck : Stuck state) (count : Nat) : ∃ next,
    Machine.run step state (List.replicate count (polls [] [])).flatten = some next ∧ next.delivered = state.delivered ∧
      next.completed.count "box" = state.completed.count "box" + count := by
  induction count generalizing state with
  | zero => exact ⟨state,rfl,rfl,rfl⟩
  | succ count ih =>
    obtain ⟨middle,ran,stays,delivered,completed⟩ := stuck_polls stuck
    obtain ⟨next,rest,same,counts⟩ := ih stays
    refine ⟨next,?_,same.trans delivered,?_⟩
    · rw [replicate_succ,flatten_cons]
      exact run_append_some step ran rest
    · rw [counts,completed,count_append,count_singleton_self]
      omega

def halfway : List Event := opening ++ [.ticks,.pumps,.answers [],.emits]

def overtaking : List Event :=
  [.commits ((∅ : Table Key (Option Row)).insert upload.1 (some upload.2)),.answers [upload],.emits,.ends,.pumps]

/-- A job that changes between a pump's two queries is never delivered, however many ticks follow. -/
theorem stream_loses_job : ¬∀ (rows : Table Key Row) (before : List Event) (writes : Table Key (Option Row))
    (subscriber : Subscriber) (key : Key) (row : Row) (changed : State),
    Machine.run step (.quiet rows) (before ++ [.commits writes]) = some changed → writes.lookup key = some (some row) →
      subscriber ∈ changed.subscribers → subscriber.entitled key row = true → ∃ enough, ∀ after final,
        Machine.run step changed after = some final → (∀ event ∈ after, Undisturbed subscriber key row event) →
          enough ≤ final.completed.count subscriber.organizationId →
            Sent changed.delivered.length subscriber key row final := by
  intro claimed
  have committed : (Machine.run step (.quiet ∅) (halfway ++ [sweepCommit])).any (fun changed =>
      decide (ayse ∈ changed.subscribers)) = true := by
    decide +kernel
  have overtaken : (Machine.run step (.quiet ∅) ((halfway ++ [sweepCommit]) ++ overtaking)).any (fun state =>
      decide ((∀ entry ∈ state.rows.rows, entry.2.updatedAt ≤ 11) ∧ state.subscribers = [ayse] ∧ state.ticking = none ∧
        state.watermark "box" = some ⟨11,0⟩ ∧ ∀ delivery ∈ state.delivered, delivery.key ≠ sweepKey)) = true := by
    decide +kernel
  obtain ⟨changed,ranBefore,inside⟩ := (Option.any_eq_true _ _).mp committed
  obtain ⟨state,ran,facts⟩ := (Option.any_eq_true _ _).mp overtaken
  obtain ⟨old,subscribers,idle,passed,others⟩ := of_decide_eq_true facts
  rw [run_append,ranBefore,Option.bind_some] at ran
  obtain ⟨enough,delivers⟩ := claimed ∅ halfway _ ayse sweepKey sweepJob changed ranBefore (lookup_insert _)
    (of_decide_eq_true inside) (by decide)
  obtain ⟨final,rest,same,counts⟩ := stuck_many ⟨old,subscribers,idle,passed⟩ enough
  have undisturbed : ∀ event ∈ overtaking ++ (List.replicate enough (polls [] [])).flatten,
      Undisturbed ayse sweepKey sweepJob event := by
    intro event member
    rcases mem_append.mp member with first | later
    · simp only [overtaking,mem_cons,not_mem_nil,or_false] at first
      rcases first with rfl | rfl | rfl | rfl | rfl
      · intro other value written
        rw [lookup_insert_eq] at written
        obtain ⟨same,written⟩ := of_when written
        cases written
        subst same
        refine ⟨by decide,fun row same => ?_⟩
        cases same
        decide
      all_goals trivial
    · obtain ⟨cycle,repeated,member⟩ := mem_flatten.mp later
      rw [eq_of_mem_replicate repeated] at member
      simp only [polls,mem_cons,not_mem_nil,or_false] at member
      rcases member with rfl | rfl | rfl | rfl | rfl | rfl | rfl | rfl <;> trivial
  have plenty : enough ≤ final.completed.count ayse.organizationId := by
    have box : ayse.organizationId = "box" := rfl
    rw [box,counts]
    omega
  obtain ⟨delivery,member,-,key,-⟩ := delivers _ final (run_append_some step ran rest) undisturbed plenty
  rw [same] at member
  exact others delivery (mem_of_mem_drop member) key

end Depsis.Events
