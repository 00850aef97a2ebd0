import Depsis.Auth.Enrolment

/-! What enrolments, checks and new recovery codes keep, as long as a confirmation finds the secret it has
read, and a counter that is not ahead of its own step.
-/
namespace Depsis.Auth.Enrolment

open Depsis.Foundation List AList Option Machine

variable {crypto : Crypto} {state next final : State} {event : Event} {call : Nat} {asked later : Call}
variable {opens : Bool} {unixSeconds : Int} {check : Check} {mfa : Mfa} {row : TotpRow} {code : List Char} {hashes : List String}

/-- The confirmation comes on the secret that was read, and takes the counter no step back. -/
def Event.spares (state : State) : Event → Bool
  | .goes call _ _ _ => (state.calls.lookup call).all (fun asked =>
      match asked with
      | .confirm row used => state.mfa.row.all (fun stored =>
          stored.writing = row.writing && stored.lastUsedStep.all (fun last => last ≤ used))
      | _ => true)
  | _ => true

def Ahead (before after : Option Int) : Prop := ∀ last, before = some last → ∃ now, after = some now ∧ last ≤ now

def Alike (mfa next : Mfa) : Prop :=
  mfa.row = none ∧ next.row = none ∨ ∃ row later, mfa.row = some row ∧ next.row = some later ∧ later.secret = row.secret ∧
    later.writing = row.writing ∧ later.confirmed = row.confirmed ∧ (later.sealed = false → row.sealed = false) ∧
      Ahead row.lastUsedStep later.lastUsedStep

def Old (secrets : List (List UInt8)) (row : TotpRow) : Prop := row.writing = 0 ∧ secrets[0]? = some row.secret

def Check.old (secrets : List (List UInt8)) : Check → Prop
  | .reseal row _ => Old secrets row
  | _ => True

def Call.held (secrets : List (List UInt8)) (proved : List Nat) : Call → Prop
  | .confirmReseal row _ => Old secrets row
  | .confirm row _ => row.writing ∈ proved
  | .verify check => Check.old secrets check
  | .confirmRead _ => True

structure Kept (state : State) : Prop where
  newest : ∀ row, state.mfa.row = some row → row.writing + 1 = state.secrets.length ∧ state.secrets[row.writing]? = some row.secret
  plain : ∀ row, state.mfa.row = some row → row.sealed = false → row.writing = 0
  proved : ∀ row, state.mfa.row = some row → row.confirmed = true → row.writing ∈ state.proved
  held : ∀ call asked, state.calls.lookup call = some asked → asked.held state.secrets state.proved
  codes : ∀ hash, state.mfa.codes.lookup hash = some false ↔ hash ∈ state.returned ∧ hash ∉ state.spent

def Grows (state next : State) : Prop := ∀ before, state.mfa.row = some before → ∃ after, next.mfa.row = some after ∧
  before.writing ≤ after.writing ∧ (before.writing = after.writing → Ahead before.lastUsedStep after.lastUsedStep)

theorem ahead_refl (last : Option Int) : Ahead last last := fun value found => ⟨value,found,Int.le_refl _⟩

theorem Ahead.trans {first second third : Option Int} (one : Ahead first second) (two : Ahead second third) : Ahead first third := by
  intro last found
  obtain ⟨middle,there,less⟩ := one last found
  obtain ⟨now,here,more⟩ := two middle there
  exact ⟨now,here,Int.le_trans less more⟩

theorem grows_refl (state : State) : Grows state state :=
  fun before stored => ⟨before,stored,le_refl _,fun _ => ahead_refl _⟩

theorem Grows.trans {middle : State} (one : Grows state middle) (two : Grows middle final) : Grows state final := by
  intro before stored
  obtain ⟨between,there,less,first⟩ := one before stored
  obtain ⟨after,here,more,second⟩ := two between there
  refine ⟨after,here,le_trans less more,fun same => ?_⟩
  have equal : before.writing = between.writing := by omega
  exact (first equal).trans (second (equal.symm.trans same))

theorem alike_refl (mfa : Mfa) : Alike mfa mfa := by
  cases stored : mfa.row with
  | none => exact .inl ⟨stored,stored⟩
  | some row => exact .inr ⟨row,row,stored,stored,rfl,rfl,rfl,fun same => same,ahead_refl _⟩

theorem burn_alike {used : Int} {after : Mfa} (burnt : mfa.burn used = some after) : Alike mfa after ∧ after.codes = mfa.codes := by
  obtain ⟨row,stored,below,rfl⟩ := burn_some burnt
  refine ⟨.inr ⟨row,_,stored,rfl,rfl,rfl,rfl,fun same => same,fun last found => ⟨used,rfl,?_⟩⟩,rfl⟩
  exact Int.le_of_lt (below last found)

theorem spend_alike {hash : String} {after : Mfa} (spent : mfa.spend hash = some after) : Alike mfa after := by
  obtain ⟨-,rfl⟩ := spend_some spent
  exact alike_refl mfa

theorem Kept.reseal (kept : Kept state) (old : Old state.secrets row) :
    Alike state.mfa (state.mfa.reseal row) ∧ (state.mfa.reseal row).codes = state.mfa.codes := by
  unfold Mfa.reseal
  split
  next => exact ⟨alike_refl _,rfl⟩
  next stored found =>
    split
    next => exact ⟨alike_refl _,rfl⟩
    next plain =>
      have zero := kept.plain stored found (by simpa using plain)
      have secret := (kept.newest stored found).2
      rw [zero,old.2] at secret
      refine ⟨.inr ⟨stored,_,found,rfl,Option.some.inj secret,old.1.trans zero.symm,rfl,?_,ahead_refl _⟩,rfl⟩
      exact nofun

theorem Alike.grows (alike : Alike state.mfa mfa) {calls : Table Nat Call} {spent : List String} :
    Grows state { state with mfa := mfa, calls := calls, spent := spent } := by
  intro before stored
  rcases alike with ⟨none,-⟩ | ⟨row,after,there,here,-,writing,-,-,ahead⟩
  · cases none.symm.trans stored
  · cases there.symm.trans stored
    exact ⟨after,here,le_of_eq writing.symm,fun _ => ahead⟩

section

variable (kept : Kept state)
include kept

theorem Kept.alike {calls : Table Nat Call} {spent : List String} (alike : Alike state.mfa mfa)
    (held : ∀ call asked, calls.lookup call = some asked → asked.held state.secrets state.proved)
    (codes : ∀ hash, mfa.codes.lookup hash = some false ↔ hash ∈ state.returned ∧ hash ∉ spent) :
    Kept { state with mfa := mfa, calls := calls, spent := spent } := by
  have back : ∀ after, mfa.row = some after → ∃ row, state.mfa.row = some row ∧ after.secret = row.secret ∧
      after.writing = row.writing ∧ after.confirmed = row.confirmed ∧ (after.sealed = false → row.sealed = false) := by
    intro after found
    rcases alike with ⟨-,none⟩ | ⟨row,other,there,here,secret,writing,confirmed,plain,-⟩
    · cases none.symm.trans found
    · cases here.symm.trans found
      exact ⟨row,there,secret,writing,confirmed,plain⟩
  refine ⟨fun after found => ?_,fun after found open' => ?_,fun after found confirmed => ?_,held,codes⟩
  · obtain ⟨row,there,secret,writing,-⟩ := back after found
    rw [writing,secret]
    exact kept.newest row there
  · obtain ⟨row,there,-,writing,-,plain⟩ := back after found
    exact writing.trans (kept.plain row there (plain open'))
  · obtain ⟨row,there,-,writing,same,-⟩ := back after found
    rw [writing]
    exact kept.proved row there (same.symm.trans confirmed)

theorem Kept.ended (call : Nat) : ∀ other asked, (state.calls.erase call).lookup other = some asked →
    asked.held state.secrets state.proved := by
  intro other asked found
  obtain ⟨-,found⟩ := lookup_erase_some found
  exact kept.held other asked found

theorem Kept.continued (call : Nat) (here : later.held state.secrets state.proved) :
    ∀ other asked, (state.calls.insert call later).lookup other = some asked → asked.held state.secrets state.proved := by
  intro other asked found
  rcases lookup_insert_cases found with ⟨-,rfl⟩ | ⟨-,found⟩
  · exact here
  · exact kept.held other asked found

theorem Kept.ends (call : Nat) : Kept (state.ends call) :=
  kept.alike (alike_refl _) (kept.ended call) kept.codes

theorem Kept.continues (call : Nat) (here : later.held state.secrets state.proved) :
    Kept (state.continues call later) :=
  kept.alike (alike_refl _) (kept.continued call here) kept.codes

end

theorem Call.held.more {secrets : List (List UInt8)} {proved : List Nat} {writing : Nat} (held : asked.held secrets proved) :
    asked.held secrets (proved ++ [writing]) := by
  cases asked with
  | confirm row used => exact mem_append_left _ held
  | _ => exact held

theorem Kept.proves (kept : Kept state) (call : Nat) (row : TotpRow) (code : List Char) :
    Kept (state.proves crypto call row code unixSeconds) := by
  unfold State.proves
  split
  next => exact kept.ends call
  next step _ =>
    have more : Kept { state with proved := state.proved ++ [row.writing] } :=
      ⟨kept.newest,kept.plain,fun stored found confirmed => mem_append_left _ (kept.proved stored found confirmed),
        fun other asked found => (kept.held other asked found).more,kept.codes⟩
    exact more.continues call (mem_append_right _ mem_cons_self)

theorem proves_row (call : Nat) (row : TotpRow) (code : List Char) :
    (state.proves crypto call row code unixSeconds).mfa = state.mfa := by
  unfold State.proves
  split <;> rfl

theorem replaced_codes {after : Mfa} (replaced : mfa.replaceCodes hashes = some after) :
    after.row = mfa.row ∧ ∀ hash, after.codes.lookup hash = some false ↔ hash ∈ hashes ∧ hash ∉ ([] : List String) := by
  unfold Mfa.replaceCodes at replaced
  obtain ⟨distinct,replaced⟩ := of_when replaced
  cases replaced
  refine ⟨rfl,fun hash => ⟨fun found => ?_,fun member => ?_⟩⟩
  · rcases lookup_fill_some found with listed | old
    · obtain ⟨other,member,same⟩ := mem_map.mp listed
      cases same
      exact ⟨member,not_mem_nil⟩
    · cases old
  · refine lookup_fill_of_mem ?_ (mem_map.mpr ⟨hash,member.1,rfl⟩)
    simpa [Function.comp_def] using distinct

theorem Kept.confirm {used : Int} (kept : Kept state) (found : state.calls.lookup call = some (.confirm row used))
    (spared : (Event.goes call opens unixSeconds hashes).spares state = true) :
    Kept (state.confirm call used hashes) ∧ Grows state (state.confirm call used hashes) := by
  have fits : state.mfa.row.all (fun stored => stored.writing = row.writing && stored.lastUsedStep.all (fun last => last ≤ used)) = true := by
    simpa [Event.spares,found] using spared
  unfold State.confirm
  split
  next => exact ⟨kept.ends call,grows_refl state⟩
  next after confirmed =>
    obtain ⟨rows,codes⟩ := replaced_codes confirmed
    have back : ∀ later, after.row = some later → ∃ stored, state.mfa.row = some stored ∧
        later = { stored with confirmed := true, lastUsedStep := some used } := by
      intro later there
      obtain ⟨stored,before,same⟩ := map_eq_some_iff.mp (rows.symm.trans there)
      exact ⟨stored,before,same.symm⟩
    constructor
    · refine ⟨fun later there => ?_,fun later there open' => ?_,fun later there _ => ?_,kept.ended call,codes⟩
      · obtain ⟨stored,before,rfl⟩ := back later there
        exact kept.newest stored before
      · obtain ⟨stored,before,rfl⟩ := back later there
        exact kept.plain stored before open'
      · obtain ⟨stored,before,rfl⟩ := back later there
        simp only [before,all_some,Bool.and_eq_true,decide_eq_true_eq] at fits
        change stored.writing ∈ state.proved
        rw [fits.1]
        exact kept.held call _ found
    · intro before stored
      simp only [stored,all_some,Bool.and_eq_true,decide_eq_true_eq] at fits
      refine ⟨_,rows.trans (congrArg (Option.map _) stored),le_refl _,fun _ last there => ⟨used,rfl,?_⟩⟩
      simpa [there] using fits.2

theorem read_some {requireConfirmed plain : Bool} (read : mfa.read crypto requireConfirmed opens = some (row,plain)) :
    mfa.row = some row ∧ (plain = true → row.sealed = false) := by
  unfold Mfa.read at read
  split at read
  next => cases read
  next stored found =>
    have held : mfa.row = some stored := (filter_eq_some_iff.mp found).1
    split at read
    next unsealed =>
      cases read
      exact ⟨held,fun _ => by simpa using unsealed⟩
    next =>
      obtain ⟨-,read⟩ := of_when read
      cases read
      exact ⟨held,nofun⟩

theorem Kept.old (kept : Kept state) {requireConfirmed plain : Bool}
    (read : state.mfa.read crypto requireConfirmed opens = some (row,plain)) (same : plain = true) : Old state.secrets row := by
  obtain ⟨stored,unsealed⟩ := read_some read
  have zero := kept.plain row stored (unsealed same)
  have secret := (kept.newest row stored).2
  rw [zero] at secret
  exact ⟨zero,secret⟩

theorem judged_old (secrets : List (List UInt8)) (row : TotpRow) (code : List Char) :
    Check.old secrets (row.judge crypto code unixSeconds) := by
  rcases @judge_cases crypto unixSeconds row code with no | ⟨used,burns⟩
  · rw [no]
    trivial
  · rw [burns]
    trivial

theorem Kept.advanced {following : Check} (kept : Kept state)
    (after : state.mfa.advance crypto opens unixSeconds check = (mfa,following)) : Check.old state.secrets following := by
  cases check with simp only [Mfa.advance] at after
  | read code =>
    split at after
    next =>
      cases after
      trivial
    next row read =>
      cases after
      exact kept.old read rfl
    next row _ =>
      cases after
      exact judged_old _ row code
  | reseal row code =>
    cases after
    exact judged_old _ row code
  | burn used | spend hash =>
    split at after <;> cases after <;> trivial
  | ends ok =>
    cases after
    trivial

theorem Kept.verify (kept : Kept state) (found : state.calls.lookup call = some (.verify check)) :
    Kept (state.verify crypto call opens unixSeconds check) ∧ Grows state (state.verify crypto call opens unixSeconds check) := by
  have old := kept.held call _ found
  unfold State.verify
  generalize after : state.mfa.advance crypto opens unixSeconds check = result
  obtain ⟨mfa,following⟩ := result
  have here := kept.continued call (show Call.held state.secrets state.proved (.verify following) from kept.advanced after)
  have waits : ∀ spent : List String, spent = state.spent → Alike state.mfa mfa → mfa.codes = state.mfa.codes →
      Kept ({ state with mfa := mfa, spent := spent }.continues call (.verify following)) ∧
        Grows state ({ state with mfa := mfa, spent := spent }.continues call (.verify following)) := by
    rintro _ rfl alike same
    exact ⟨kept.alike alike here (same ▸ kept.codes),alike.grows⟩
  rcases advance_cases after with ⟨used,rfl,burnt,rfl⟩ | ⟨hash,rfl,spent,rfl⟩ | ⟨row,code,rfl,rfl,rfl⟩ | ⟨rfl,well⟩
  · obtain ⟨alike,codes⟩ := burn_alike burnt
    exact waits _ (append_nil _) alike codes
  · refine ⟨kept.alike (spend_alike spent) here (fun other => ?_),(spend_alike spent).grows⟩
    obtain ⟨-,rfl⟩ := spend_some spent
    change (state.mfa.codes.insert hash true).lookup other = some false ↔ other ∈ state.returned ∧ other ∉ state.spent ++ [hash]
    rw [lookup_insert_eq,mem_append,mem_singleton,not_or]
    split
    next same =>
      exact ⟨nofun,fun held => absurd same held.2.2⟩
    next different =>
      rw [kept.codes other]
      exact ⟨fun held => ⟨held.1,held.2,different⟩,fun held => ⟨held.1,held.2.1⟩⟩
  · obtain ⟨alike,codes⟩ := kept.reseal old
    refine waits _ ?_ alike codes
    split
    next => exact append_nil _
    next => rfl
  · refine waits _ ?_ (alike_refl _) rfl
    split
    next done =>
      obtain rfl := well done
      exact append_nil _
    next => rfl

theorem proves_grows (state : State) (call : Nat) (row : TotpRow) (code : List Char) :
    Grows state (state.proves crypto call row code unixSeconds) := by
  intro before stored
  refine ⟨before,?_,le_refl _,fun _ => ahead_refl _⟩
  rw [proves_row]
  exact stored

theorem Kept.go (kept : Kept state) (found : state.calls.lookup call = some asked)
    (spared : (Event.goes call opens unixSeconds hashes).spares state = true) :
    Kept (state.go crypto call opens unixSeconds hashes asked) ∧
      Grows state (state.go crypto call opens unixSeconds hashes asked) := by
  cases asked with
  | confirmRead code =>
    simp only [State.go]
    split
    next => exact ⟨kept.ends call,grows_refl state⟩
    next row read => exact ⟨kept.continues call (kept.old read rfl),grows_refl state⟩
    next row _ => exact ⟨kept.proves call row code,proves_grows state call row code⟩
  | confirmReseal row code =>
    obtain ⟨alike,codes⟩ := kept.reseal (kept.held call _ found)
    have resealed : Kept { state with mfa := state.mfa.reseal row } := kept.alike alike kept.held (codes ▸ kept.codes)
    have moved : Grows state { state with mfa := state.mfa.reseal row } := alike.grows
    exact ⟨resealed.proves call row code,moved.trans (proves_grows _ call row code)⟩
  | confirm row used => exact kept.confirm found spared
  | verify check =>
    cases check with
    | ends ok => exact ⟨kept.ends call,grows_refl state⟩
    | _ => exact kept.verify found

theorem Call.held.written {secrets : List (List UInt8)} {proved : List Nat} {secret : List UInt8}
    (held : asked.held secrets proved) : asked.held (secrets ++ [secret]) proved := by
  have old : ∀ row, Old secrets row → Old (secrets ++ [secret]) row := by
    intro row old
    obtain ⟨inside,-⟩ := List.getElem?_eq_some_iff.mp old.2
    refine ⟨old.1,?_⟩
    rw [getElem?_append_left inside]
    exact old.2
  cases asked with
  | confirmReseal row code => exact old row held
  | verify check =>
    cases check with
    | reseal row code => exact old row held
    | _ => trivial
  | confirm row used => exact held
  | confirmRead code => trivial

theorem Kept.begins (kept : Kept state) (secret : List UInt8) :
    Kept { state with mfa := state.mfa.begin secret state.secrets.length, secrets := state.secrets ++ [secret] } := by
  refine ⟨fun row stored => ?_,fun row stored plain => ?_,fun row stored confirmed => ?_,fun call asked found => ?_,kept.codes⟩
  · cases stored
    refine ⟨?_,getElem?_concat_length⟩
    change state.secrets.length + 1 = (state.secrets ++ [secret]).length
    rw [length_append,length_singleton]
  · cases stored
    cases plain
  · cases stored
    cases confirmed
  · exact (kept.held call asked found).written

theorem step_kept (kept : Kept state) (spared : event.spares state = true) (taken : step crypto state event = some next) :
    Kept next ∧ Grows state next := by
  cases event with simp only [step] at taken
  | begins secret =>
    split at taken
    next =>
      cases taken
      refine ⟨kept.begins secret,fun before stored => ⟨_,rfl,?_,fun same => ?_⟩⟩
      · have newest := (kept.newest before stored).1
        change before.writing ≤ state.secrets.length
        omega
      · have newest := (kept.newest before stored).1
        change before.writing = state.secrets.length at same
        omega
    next =>
      cases taken
      exact ⟨kept,grows_refl state⟩
  | regenerates hashes =>
    split at taken
    next =>
      cases taken
      exact ⟨kept,grows_refl state⟩
    next mfa replaced =>
      cases taken
      obtain ⟨same,codes⟩ := replaced_codes replaced
      refine ⟨⟨?_,?_,?_,kept.held,codes⟩,fun before stored => ⟨before,same.trans stored,le_refl _,fun _ => ahead_refl _⟩⟩
      · exact fun row stored => kept.newest row (same.symm.trans stored)
      · exact fun row stored => kept.plain row (same.symm.trans stored)
      · exact fun row stored => kept.proved row (same.symm.trans stored)
  | confirms call code =>
    obtain ⟨-,taken⟩ := of_unless taken
    cases taken
    exact ⟨kept.continues call trivial,grows_refl state⟩
  | verifies call submitted =>
    obtain ⟨-,taken⟩ := of_unless taken
    cases taken
    refine ⟨kept.continues call ?_,grows_refl state⟩
    change Check.old state.secrets (verifySecondFactor crypto submitted)
    unfold verifySecondFactor
    simp only []
    split
    next => trivial
    next => split <;> trivial
  | goes call opens unixSeconds hashes =>
    obtain ⟨asked,found,rfl⟩ := map_eq_some_iff.mp taken
    exact kept.go found spared
  | fails call =>
    cases taken
    exact ⟨kept.ends call,grows_refl state⟩

theorem kept_first {secret : List UInt8} {stored : Option TotpRow} (distinct : hashes.Nodup) :
    Kept (State.first secret stored hashes) := by
  have back : ∀ row, (State.first secret stored hashes).mfa.row = some row → row.writing = 0 ∧ row.secret = secret := by
    intro row found
    obtain ⟨before,-,rfl⟩ := map_eq_some_iff.mp found
    exact ⟨rfl,rfl⟩
  refine ⟨fun row found => ?_,fun row found _ => (back row found).1,fun row found _ => ?_,nofun,fun hash => ?_⟩
  · obtain ⟨writing,same⟩ := back row found
    rw [writing,same]
    exact ⟨rfl,rfl⟩
  · rw [(back row found).1]
    exact mem_cons_self
  · have replaced : (Mfa.mk none ∅).replaceCodes hashes = some ⟨none,(∅ : Table String Bool).fill (hashes.map (·,false))⟩ :=
      if_pos distinct
    exact (replaced_codes replaced).2 hash

theorem run_kept {events : List Event} (kept : Kept state)
    (met : Machine.Meets (step crypto) (fun state event => event.spares state = true) state events)
    (ran : Machine.run (step crypto) state events = some final) : Kept final ∧ Grows state final := by
  have steps : ∀ middle event next, Kept middle ∧ Grows state middle → event.spares middle = true →
      step crypto middle event = some next → Kept next ∧ Grows state next := by
    intro middle event next held spared taken
    obtain ⟨kept,grows⟩ := step_kept held.1 spared taken
    exact ⟨kept,held.2.trans grows⟩
  exact run_invariant (step crypto) steps ⟨kept,grows_refl state⟩ met ran

/-- A confirmed secret is one a code was verified for, the stored secret is the last one written, and the unused
recovery codes are those last handed out less the spent ones; the counter of a secret never goes back. All of it
as long as a confirmation's UPDATE finds the secret it has read, with a counter not ahead of its step. -/
theorem confirmed_proved {secret : List UInt8} {stored : Option TotpRow} {events : List Event} (distinct : hashes.Nodup)
    (met : Machine.Meets (step crypto) (fun state event => event.spares state = true) (State.first secret stored hashes) events)
    (ran : Machine.run (step crypto) (State.first secret stored hashes) events = some final) :
    (∀ row, final.mfa.row = some row → row.confirmed = true → row.writing ∈ final.proved) ∧
      (∀ row, final.mfa.row = some row → row.writing + 1 = final.secrets.length ∧ final.secrets[row.writing]? = some row.secret) ∧
      (∀ hash, final.mfa.codes.lookup hash = some false ↔ hash ∈ final.returned ∧ hash ∉ final.spent) ∧
      ∀ earlier later middle, events = earlier ++ later →
        Machine.run (step crypto) (State.first secret stored hashes) earlier = some middle → Grows middle final := by
  have kept := (run_kept (kept_first distinct) met ran).1
  refine ⟨kept.proved,kept.newest,kept.codes,?_⟩
  rintro earlier later middle rfl ranBefore
  obtain ⟨before,after⟩ := meets_append (step crypto) met ranBefore
  have middleKept := (run_kept (kept_first distinct) before ranBefore).1
  rw [run_append,ranBefore,bind_some] at ran
  exact (run_kept middleKept after ran).2

def zeros : Crypto := ⟨fun _ _ => List.replicate 20 0,fun text => text,fun text => text,true⟩

def sixZeros : List Char := ['0','0','0','0','0','0']

theorem confirmed_proved_enrolled : ∃ final, Machine.run (step zeros) (State.first [] none [])
    [.begins [1],.confirms 1 sixZeros,.goes 1 true 60 [],.goes 1 true 60 ["a"]] = some final ∧
      final.mfa.row.any (fun row => row.confirmed) = true ∧
      ∀ row, final.mfa.row = some row → row.confirmed = true → row.writing ∈ final.proved := by
  have runs : (Machine.run (step zeros) (State.first [] none [])
      [.begins [1],.confirms 1 sixZeros,.goes 1 true 60 [],.goes 1 true 60 ["a"]]).any (fun final =>
        final.mfa.row.any (fun row => row.confirmed)) = true := by decide +kernel
  have met : Machine.Meets (step zeros) (fun state event => event.spares state = true) (State.first [] none [])
      [.begins [1],.confirms 1 sixZeros,.goes 1 true 60 [],.goes 1 true 60 ["a"]] := by decide +kernel
  obtain ⟨final,ran,confirmed⟩ := (any_eq_true _ _).mp runs
  exact ⟨final,ran,confirmed,(confirmed_proved nodup_nil met ran).1⟩

/-- An enrolment begun again between the code's check and the confirmation: the second secret is confirmed. -/
theorem confirmed_unproved : ¬∀ events final, Machine.run (step zeros) (State.first [] none []) events = some final →
    ∀ row, final.mfa.row = some row → row.confirmed = true → row.writing ∈ final.proved := by
  intro claimed
  have runs : (Machine.run (step zeros) (State.first [] none [])
      [.begins [1],.confirms 1 sixZeros,.goes 1 true 60 [],.begins [2],.goes 1 true 60 ["a"]]).any (fun final =>
        final.mfa.row = some ⟨[2],true,true,some 3,2⟩ ∧ final.proved = [0,1]) = true := by decide +kernel
  obtain ⟨final,ran,shown⟩ := (any_eq_true _ _).mp runs
  obtain ⟨stored,proved⟩ := of_decide_eq_true shown
  have never := claimed _ final ran _ stored rfl
  rw [proved] at never
  exact absurd never (by decide)

end Depsis.Auth.Enrolment
