import Gatehouse.Proofs.Operations
import Gatehouse.Proofs.Race
import Mathlib.Data.Fin.VecNotation
import Mathlib.Data.List.FinRange

/-!
# Batches granted side by side

Several batches are granted at once, to any roles, sharing ids as they please.  Each run stores
its permissions one by one and takes them back by id when it cannot go on, so a run might delete
what another has stored since.  It never does.

What rules it out is ownership.  `Stage` says how far a run is and `Stage.owned` which stored
permissions are its own at that point; `Ongoing` says that the stored permissions are those that
were there to begin with and those that are owned, and that no two of all these share an id.  An
id that is taken is refused to everyone else, so ownership ends only with the owner's own
deletion.  Every step of every run keeps this, whatever the order (`Ongoing.step`).
-/

namespace Gatehouse

/-! ## Who stored what -/

section Trace

variable {ι : Type}

/-- The flow that last stored a permission under an id. -/
def lastStorer (trace : List (ι × Step)) (id : Uuid) : Option ι :=
  ((trace.filter fun e => (Step.stored? e.2).any fun p => p.id == id).getLast?).map Prod.fst

/-- Permissions are deleted only by the flow that last stored them. -/
def DeletesOwn (trace : List (ι × Step)) : Prop :=
  ∀ (earlier : List (ι × Step)) (i : ι) (place : Nat) (id : Uuid) (reply : Except StoreError Unit),
    earlier ++ [(i, ⟨.permissions place (.delete id), reply⟩)] <+: trace →
      lastStorer earlier id = some i

variable {trace : List (ι × Step)} {i : ι} {step : Step}

lemma lastStorer_snoc_other {id : Uuid} (h : ∀ p, Step.stored? step = some p → p.id ≠ id) :
    lastStorer (trace ++ [(i, step)]) id = lastStorer trace id := by
  have hno : ((Step.stored? step).any fun p => p.id == id) = false := by
    cases hs : Step.stored? step with
    | none => rfl
    | some p => exact beq_eq_false_iff_ne.2 (h p hs)
  simp [lastStorer, List.filter_append, hno]

lemma lastStorer_snoc_stored {p : Permission} (h : Step.stored? step = some p) :
    lastStorer (trace ++ [(i, step)]) p.id = some i := by
  simp [lastStorer, List.filter_append, h]

lemma DeletesOwn.nil : DeletesOwn ([] : List (ι × Step)) := by
  intro earlier i place id reply h
  exact absurd (List.prefix_nil.1 h) (by simp)

/-- A deletion of what one stored oneself, or another step. -/
lemma DeletesOwn.snoc (h : DeletesOwn trace)
    (hstep : ∀ (place : Nat) (id : Uuid) (reply : Except StoreError Unit),
      step = ⟨.permissions place (.delete id), reply⟩ → lastStorer trace id = some i) :
    DeletesOwn (trace ++ [(i, step)]) := by
  intro earlier j place id reply hprefix
  rcases List.prefix_concat_iff.1 hprefix with heq | hprefix
  · obtain ⟨rfl, hlast⟩ := List.append_inj' heq rfl
    obtain ⟨rfl, hs⟩ := Prod.mk.inj (List.singleton_inj.1 hlast)
    exact hstep place id reply hs.symm
  · exact h earlier j place id reply hprefix

end Trace

/-! ## How far a run is -/

/-- A batch to be granted to a role. -/
structure BatchCall where
  role : Uuid
  batch : List Permission

/-- How far the granting of a batch is. -/
inductive Stage where
  | entering
  | lookingUp
  | starting
  | storing (stored rest : List Permission)
  | undoing (left : List Permission) (e : StoreError)
  | granted
  | refused (e : AdminError)

namespace Stage

/-- What is yet to do. -/
def flow (call : BatchCall) : Stage → Flow (Except AdminError Unit)
  | entering => .call .rolesInUse (Admin.lookUpRole call.role call.batch)
  | lookingUp => Admin.lookUpRole call.role call.batch 0
  | starting => Admin.startStoring call.role call.batch
  | storing stored rest => Admin.storeAndGrant 0 call.role (stored.map Permission.id) rest
  | undoing left e => Admin.undo 0 (left.map Permission.id) e
  | granted => .done (.ok ())
  | refused e => .done (.error e)

/-- The stored permissions that belong to the run. -/
def owned (call : BatchCall) : Stage → List Permission
  | storing stored _ => stored
  | undoing left _ => left
  | granted => call.batch
  | _ => []

/-- What was stored of a batch and what is left of it are the batch. -/
def Fits (call : BatchCall) : Stage → Prop
  | storing stored rest => stored ++ rest = call.batch
  | _ => True

/-- A run begins by entering, or is refused at once. -/
lemma exists_flow_grant (call : BatchCall) :
    ∃ stage : Stage, Admin.grant call.role call.batch = stage.flow call ∧ stage.Fits call ∧
      stage.owned call = [] ∧ stage ≠ granted := by
  rw [Admin.grant_eq]
  cases Permission.validateBatch call.batch with
  | error v => exact ⟨refused (.validation v), rfl, trivial, rfl, nofun⟩
  | ok _ => exact ⟨entering, rfl, trivial, rfl, nofun⟩

/-- A run that is done was granted and owns its batch, or was refused and owns nothing. -/
lemma of_flow_done {call : BatchCall} {stage : Stage} {result : Except AdminError Unit}
    (h : stage.flow call = .done result) :
    (stage = granted ∧ result = .ok ()) ∨
      (stage ≠ granted ∧ stage.owned call = [] ∧ ∃ e, result = .error e) := by
  cases stage with
  | entering => exact nomatch h
  | lookingUp => exact nomatch h
  | starting => exact nomatch h
  | storing stored rest =>
    -- A run that is still storing has a step to take even with nothing left to store: the grant.
    cases rest with
    | nil => rw [flow, Admin.storeAndGrant_nil] at h; exact nomatch h
    | cons p rest => rw [flow, Admin.storeAndGrant_cons] at h; exact nomatch h
  | undoing left e =>
    cases left with
    | nil => exact .inr ⟨nofun, rfl, _, (Flow.done.inj h).symm⟩
    | cons p left => exact nomatch h
  | granted => exact .inl ⟨rfl, (Flow.done.inj h).symm⟩
  | refused e => exact .inr ⟨nofun, rfl, _, (Flow.done.inj h).symm⟩

end Stage

/-! ## Ownership -/

section Ongoing

variable {n : Nat}

/-- The stored permissions that do not belong to a run: those that were there to begin with, and
those that belong to another. -/
def foreign (before : Tables) (calls : Fin n → BatchCall) (stages : Fin n → Stage) (i : Fin n) :
    List Permission :=
  before.permissions.permissions ++
    ((List.finRange n).erase i).flatMap fun j => (stages j).owned (calls j)

/-- The runs are at some stages, and those that were granted were granted in some order. -/
structure Ongoing (before : Tables) (calls : Fin n → BatchCall) (stages : Fin n → Stage)
    (order : List (Fin n)) (race : Race (Fin n) (Except AdminError Unit) Tables) : Prop where
  flows : ∀ i, race.flows i = (stages i).flow (calls i)
  fits : ∀ i, (stages i).Fits (calls i)
  tables : race.state = before.withPermissions race.state.permissions
  stored : race.state.permissions.permissions.Perm (before.permissions.permissions ++
    (List.finRange n).flatMap fun i => (stages i).owned (calls i))
  ids : race.state.permissions.ids.Nodup
  grants : race.state.permissions.grants = before.permissions.grants ++
    order.flatMap fun i => grantRows (calls i).role (calls i).batch
  nodup : order.Nodup
  mem_order : ∀ i, i ∈ order ↔ stages i = .granted
  storers : ∀ i, ∀ p ∈ (stages i).owned (calls i), lastStorer race.trace p.id = some i
  deletes : DeletesOwn race.trace

variable {before : Tables} {calls : Fin n → BatchCall} {stages : Fin n → Stage}
  {order : List (Fin n)} {race : Race (Fin n) (Except AdminError Unit) Tables} {i : Fin n}

/-- What is stored belongs to a run or is foreign to it. -/
lemma stored_perm (before : Tables) (calls : Fin n → BatchCall) (stages : Fin n → Stage)
    (i : Fin n) :
    (before.permissions.permissions ++
        (List.finRange n).flatMap fun j => (stages j).owned (calls j)).Perm
      ((stages i).owned (calls i) ++ foreign before calls stages i) := by
  -- The run is taken out of the list of all runs; its place there does not matter, since the
  -- statement is up to order.
  have hsplit : ((List.finRange n).flatMap fun j => (stages j).owned (calls j)).Perm
      ((stages i).owned (calls i) ++
        ((List.finRange n).erase i).flatMap fun j => (stages j).owned (calls j)) :=
    (List.perm_cons_erase (List.mem_finRange i)).flatMap_right _
  refine (hsplit.append_left _).trans ?_
  unfold foreign
  rw [← List.append_assoc, ← List.append_assoc]
  exact List.perm_append_comm.append_right _

/-- What is foreign to a run does not depend on how far it is. -/
lemma foreign_update (stage : Stage) :
    foreign before calls (Function.update stages i stage) i = foreign before calls stages i := by
  unfold foreign
  refine congrArg _ (List.flatMap_congr fun j hj => ?_)
  have hne : j ≠ i := ((List.nodup_finRange n).mem_erase_iff.1 hj).1
  rw [Function.update_of_ne hne]

lemma mem_foreign_of_owned {j : Fin n} (hne : j ≠ i) {p : Permission}
    (hp : p ∈ (stages j).owned (calls j)) : p ∈ foreign before calls stages i := by
  refine List.mem_append_right _ (List.mem_flatMap.2 ⟨j, ?_, hp⟩)
  exact (List.nodup_finRange n).mem_erase_iff.2 ⟨hne, List.mem_finRange j⟩

namespace Ongoing

/-- A run moves on to another stage. -/
lemma move (h : Ongoing before calls stages order race) (i : Fin n) {stage : Stage}
    {table : PermissionTable} {step : Step} {order' : List (Fin n)}
    (hfits : stage.Fits (calls i))
    (hstored : table.permissions.Perm (stage.owned (calls i) ++ foreign before calls stages i))
    (hids : table.ids.Nodup)
    (hgrants : table.grants = before.permissions.grants ++
      order'.flatMap fun j => grantRows (calls j).role (calls j).batch)
    (hnodup : order'.Nodup)
    (hmem : ∀ j, j ∈ order' ↔ Function.update stages i stage j = .granted)
    (hown : ∀ p ∈ stage.owned (calls i),
      lastStorer (race.trace ++ [(i, step)]) p.id = some i)
    (hforeign : ∀ p q, Step.stored? step = some p → q ∈ foreign before calls stages i → p.id ≠ q.id)
    (hdeletes : ∀ (place : Nat) (id : Uuid) (reply : Except StoreError Unit),
      step = ⟨.permissions place (.delete id), reply⟩ → lastStorer race.trace id = some i) :
    Ongoing before calls (Function.update stages i stage) order'
      ⟨Function.update race.flows i (stage.flow (calls i)), race.state.withPermissions table,
        race.trace ++ [(i, step)]⟩ where
  -- Fields that speak of all runs: the one that moves has what is asked of it, the others are as
  -- they were.
  flows j := by
    by_cases hj : j = i
    · subst hj
      simp
    · simp [hj, h.flows j]
  fits j := by
    by_cases hj : j = i
    · subst hj
      simpa using hfits
    · simpa [hj] using h.fits j
  tables := by
    rw [h.tables]
    rfl
  -- What is foreign to the run is the same at both stages, so `stored` is `hstored` told of the new
  -- one.
  stored := by
    refine hstored.trans ?_
    have hperm := stored_perm before calls (Function.update stages i stage) i
    rw [foreign_update, Function.update_self] at hperm
    exact hperm.symm
  ids := hids
  grants := hgrants
  nodup := hnodup
  mem_order := hmem
  storers j p hp := by
    by_cases hj : j = i
    · subst hj
      rw [Function.update_self] at hp
      exact hown p hp
    · rw [Function.update_of_ne hj] at hp
      -- Another run goes on owning what it owned: the step stored nothing under such an id.
      rw [lastStorer_snoc_other fun q hq => hforeign q p hq (mem_foreign_of_owned hj hp)]
      exact h.storers j p hp
  deletes := h.deletes.snoc hdeletes

lemma stored_perm_foreign (h : Ongoing before calls stages order race) (i : Fin n) :
    race.state.permissions.permissions.Perm
      ((stages i).owned (calls i) ++ foreign before calls stages i) :=
  h.stored.trans (stored_perm before calls stages i)

/-- What a run owns has other ids than what is foreign to it. -/
lemma nodup_owned_foreign (h : Ongoing before calls stages order race) (i : Fin n) :
    (((stages i).owned (calls i) ++ foreign before calls stages i).map Permission.id).Nodup :=
  ((h.stored_perm_foreign i).map _).nodup_iff.1 h.ids

/-- A grant names a permission that is foreign to each run that has not been granted. -/
lemma grant_foreign (hb : before.permissions.Sound) (h : Ongoing before calls stages order race)
    (hi : stages i ≠ .granted) {row : Uuid × Uuid} (hrow : row ∈ race.state.permissions.grants) :
    row.2 ∈ (foreign before calls stages i).map Permission.id := by
  rw [h.grants] at hrow
  -- A grant was there to begin with, or belongs to a run that was granted, which is not this one.
  rcases List.mem_append.1 hrow with hrow | hrow
  · unfold foreign
    rw [List.map_append]
    exact List.mem_append_left _ (hb.rows row hrow)
  · obtain ⟨j, hj, hrow⟩ := List.mem_flatMap.1 hrow
    obtain ⟨p, hp, rfl⟩ := List.mem_map.1 hrow
    have hgranted : stages j = .granted := (h.mem_order j).1 hj
    have hne : j ≠ i := fun heq => hi (heq ▸ hgranted)
    refine List.mem_map_of_mem (mem_foreign_of_owned hne ?_)
    rw [hgranted]
    exact hp

lemma mem_order_update (h : Ongoing before calls stages order race) {stage : Stage}
    (hfrom : stages i ≠ .granted) (hto : stage ≠ .granted) (j : Fin n) :
    j ∈ order ↔ Function.update stages i stage j = .granted := by
  by_cases hj : j = i
  · subst hj
    simp [h.mem_order, hfrom, hto]
  · simp [h.mem_order, hj]

/-- A run moves on without storing, granting or deleting. -/
lemma quiet (h : Ongoing before calls stages order race) (stage : Stage) {step : Step}
    (hfits : stage.Fits (calls i)) (howned : stage.owned (calls i) = (stages i).owned (calls i))
    (hfrom : stages i ≠ .granted) (hto : stage ≠ .granted) (hstored : Step.stored? step = none)
    (hdeletes : ∀ (place : Nat) (id : Uuid) (reply : Except StoreError Unit),
      step ≠ ⟨.permissions place (.delete id), reply⟩) :
    Ongoing before calls (Function.update stages i stage) order
      ⟨Function.update race.flows i (stage.flow (calls i)), race.state,
        race.trace ++ [(i, step)]⟩ := by
  refine h.move i hfits ?_ h.ids h.grants h.nodup (h.mem_order_update hfrom hto) ?_ ?_ ?_
  · rw [howned]
    exact h.stored_perm_foreign i
  · intro p hp
    rw [lastStorer_snoc_other fun q hq => nomatch hstored.symm.trans hq]
    exact h.storers i p (howned ▸ hp)
  · exact fun p q hp => nomatch hstored.symm.trans hp
  · exact fun place id reply hstep => absurd hstep (hdeletes place id reply)

/-- A run looks its role up. -/
lemma lookUp (h : Ongoing before calls stages order race) (hs : stages i = .lookingUp) :
    ∃ stage, Ongoing before calls (Function.update stages i stage) order
      (race.step Tables.answer i) := by
  have hflow := h.flows i
  rw [hs] at hflow
  have howned : (stages i).owned (calls i) = [] := by rw [hs]; rfl
  have hfrom : stages i ≠ .granted := by rw [hs]; nofun
  have hanswer : (Tables.answer (.roles 0 (.find (calls i).role)) race.state).1 =
      .ok (race.state.roles.find? (calls i).role) := rfl
  rw [Race.step_call hflow, hanswer]
  cases race.state.roles.find? (calls i).role with
  | none => exact ⟨_, h.quiet (.refused _) trivial howned.symm hfrom nofun rfl nofun⟩
  | some role => exact ⟨_, h.quiet .starting trivial howned.symm hfrom nofun rfl nofun⟩

/-- A run stores its next permission, or finds the id taken and begins to undo. -/
lemma store (h : Ongoing before calls stages order race) {stored rest : List Permission}
    {p : Permission} (hs : stages i = .storing stored (p :: rest)) :
    ∃ stage, Ongoing before calls (Function.update stages i stage) order
      (race.step Tables.answer i) := by
  have hflow := h.flows i
  have hfits := h.fits i
  rw [hs] at hfits
  rw [hs, Stage.flow, Admin.storeAndGrant_cons] at hflow
  have howned : (stages i).owned (calls i) = stored := by rw [hs]; rfl
  have hfrom : stages i ≠ .granted := by rw [hs]; nofun
  have hperm := h.stored_perm_foreign i
  rw [howned] at hperm
  have hanswer : Tables.answer (.permissions 0 (.create p)) race.state =
      ((race.state.permissions.create p).1,
        race.state.withPermissions (race.state.permissions.create p).2) := rfl
  rw [Race.step_call hflow, hanswer]
  rcases hcreate : race.state.permissions.create p with ⟨reply, table⟩
  cases reply with
  -- The id is taken, by whomever: the run changes nothing and turns to undoing what it owns.
  | error e =>
    obtain ⟨-, rfl⟩ := PermissionTable.create_error hcreate
    exact ⟨_, h.quiet (.undoing stored e) trivial howned.symm hfrom nofun rfl nofun⟩
  | ok _ =>
    obtain ⟨hnew, rfl⟩ := PermissionTable.create_ok hcreate
    -- The id was free, so neither this run nor any other owns a permission under it.
    have hthere : ∀ q ∈ stored ++ foreign before calls stages i, p.id ≠ q.id := fun q hq heq =>
      hnew (heq ▸ List.mem_map_of_mem (hperm.mem_iff.2 hq))
    have hflow' : Admin.storeAndGrant 0 (calls i).role (stored.map Permission.id ++ [p.id]) rest =
        (Stage.storing (stored ++ [p]) rest).flow (calls i) := by
      rw [Stage.flow, List.map_append]
      rfl
    refine ⟨.storing (stored ++ [p]) rest, ?_⟩
    rw [hflow']
    refine h.move i (by rwa [Stage.Fits, ← List.append_cons]) ?_ (nodup_map_key_append h.ids hnew)
      h.grants h.nodup (h.mem_order_update hfrom nofun) ?_ ?_ nofun
    · refine (hperm.append_right [p]).trans ?_
      rw [Stage.owned, List.append_assoc, List.append_assoc]
      exact List.perm_append_comm.append_left _
    · intro q hq
      rcases List.mem_append.1 hq with hq | hq
      · have hne := hthere q (List.mem_append_left _ hq)
        rw [lastStorer_snoc_other fun p' hp' => (Option.some.inj hp') ▸ hne]
        exact h.storers i q (howned ▸ hq)
      · rw [List.mem_singleton.1 hq]
        exact lastStorer_snoc_stored rfl
    · intro p' q hp' hq
      exact (Option.some.inj hp') ▸ hthere q (List.mem_append_right _ hq)

/-- A run that has stored its batch grants it. -/
lemma grant (h : Ongoing before calls stages order race) {stored : List Permission}
    (hs : stages i = .storing stored []) :
    Ongoing before calls (Function.update stages i .granted) (order ++ [i])
      (race.step Tables.answer i) := by
  have hflow := h.flows i
  have hfits := h.fits i
  rw [hs, Stage.Fits, List.append_nil] at hfits
  rw [hs, Stage.flow, Admin.storeAndGrant_nil] at hflow
  have howned : (stages i).owned (calls i) = (calls i).batch := by rw [hs, ← hfits]; rfl
  have hfrom : stages i ≠ .granted := by simp [hs]
  have hperm := h.stored_perm_foreign i
  rw [howned] at hperm
  -- Nobody else deletes what the run stored, so all of it is still there to be granted.
  have hthere : ∀ id ∈ stored.map Permission.id, id ∈ race.state.permissions.ids := by
    intro id hid
    obtain ⟨p, hp, rfl⟩ := List.mem_map.1 hid
    exact List.mem_map_of_mem (hperm.mem_iff.2 (List.mem_append_left _ (hfits ▸ hp)))
  have hanswer : Tables.answer (.permissions 0 (.grant (calls i).role (stored.map Permission.id)))
      race.state = (.ok (), race.state.withPermissions ⟨race.state.permissions.permissions,
        race.state.permissions.grants ++ grantRows (calls i).role (calls i).batch⟩) := by
    show ((race.state.permissions.grant _ _).1,
      race.state.withPermissions (race.state.permissions.grant _ _).2) = _
    rw [PermissionTable.grant_of_subset hthere, ← hfits, grantRows, List.map_map]
    rfl
  rw [Race.step_call hflow, hanswer]
  refine h.move i trivial hperm h.ids ?_ ?_ ?_ ?_ ?_ ?_
  · rw [h.grants, List.flatMap_append, List.flatMap_singleton, List.append_assoc]
  · have hi : i ∉ order := fun hi => hfrom ((h.mem_order i).1 hi)
    exact h.nodup.append (List.nodup_singleton i) (List.disjoint_singleton.2 hi)
  · intro j
    by_cases hj : j = i
    · subst hj
      simp
    · simp [h.mem_order, hj]
  · intro p hp
    refine (lastStorer_snoc_other ?_).trans (h.storers i p (howned ▸ hp))
    intro q hq
    cases hq
  · intro p q hp
    cases hp
  · intro place id reply hstep
    cases hstep

/-- A run takes back the next of its permissions. -/
lemma takeBack (hb : before.permissions.Sound) (h : Ongoing before calls stages order race)
    {left : List Permission} {p : Permission} {e : StoreError}
    (hs : stages i = .undoing (p :: left) e) :
    Ongoing before calls (Function.update stages i (.undoing left e)) order
      (race.step Tables.answer i) := by
  have hflow := h.flows i
  rw [hs] at hflow
  have howned : (stages i).owned (calls i) = p :: left := by rw [hs]; rfl
  have hfrom : stages i ≠ .granted := by rw [hs]; nofun
  have hperm := h.stored_perm_foreign i
  have hnodup := h.nodup_owned_foreign i
  rw [howned] at hperm hnodup
  rw [List.cons_append, List.map_cons, List.nodup_cons] at hnodup
  -- No grant names the permission, for grants name what is foreign to this run.
  have hrows : ∀ row ∈ race.state.permissions.grants, row.2 ≠ p.id := by
    intro row hrow heq
    have hforeign := h.grant_foreign hb hfrom hrow
    rw [heq] at hforeign
    refine hnodup.1 ?_
    rw [List.map_append]
    exact List.mem_append_right _ hforeign
  have hanswer : Tables.answer (.permissions 0 (.delete p.id)) race.state =
      (.ok (), race.state.withPermissions (race.state.permissions.delete p.id)) := rfl
  rw [Race.step_call hflow, hanswer, PermissionTable.delete_of_ungranted hrows]
  refine h.move i trivial ?_ (nodup_map_key_filter h.ids _) h.grants h.nodup
    (h.mem_order_update hfrom nofun) ?_ nofun ?_
  · -- Ids are distinct, so the filter of the deletion takes the owned permission and no other.
    have hfilter := hperm.filter fun q => q.id != p.id
    rw [List.cons_append, List.filter_cons_of_neg (by simp), filter_key_eq_self hnodup.1] at hfilter
    exact hfilter
  · intro q hq
    refine (lastStorer_snoc_other ?_).trans (h.storers i q ?_)
    · exact fun _ hp => nomatch hp
    · rw [howned]
      exact List.mem_cons_of_mem _ hq
  · -- The permission deleted was owned, and what a run owns it was the last to store.
    intro place id reply hstep
    have hid : p.id = id := by
      cases hstep
      rfl
    rw [← hid]
    exact h.storers i p (howned ▸ List.mem_cons_self)

/-- A run whose turn it is keeps what all runs rely on. -/
theorem step (hb : before.permissions.Sound) (h : Ongoing before calls stages order race)
    (i : Fin n) :
    ∃ stages' order', Ongoing before calls stages' order' (race.step Tables.answer i) := by
  have hflow := h.flows i
  cases hs : stages i with
  | entering =>
    rw [hs] at hflow
    rw [Race.step_call hflow]
    exact ⟨_, order, h.quiet .lookingUp trivial (by rw [hs]; rfl) (by rw [hs]; nofun)
      nofun rfl nofun⟩
  | lookingUp =>
    obtain ⟨stage, h'⟩ := h.lookUp hs
    exact ⟨_, order, h'⟩
  | starting =>
    rw [hs] at hflow
    rw [Race.step_call hflow]
    exact ⟨_, order, h.quiet (.storing [] (calls i).batch) rfl (by rw [hs]; rfl)
      (by rw [hs]; nofun) nofun rfl nofun⟩
  | storing stored rest =>
    cases rest with
    | nil => exact ⟨_, _, h.grant hs⟩
    | cons p rest =>
      obtain ⟨stage, h'⟩ := h.store hs
      exact ⟨_, order, h'⟩
  | undoing left e =>
    cases left with
    | nil =>
      rw [hs] at hflow
      rw [Race.step_done hflow]
      exact ⟨stages, order, h⟩
    | cons p left => exact ⟨_, order, h.takeBack hb hs⟩
  | granted =>
    rw [hs] at hflow
    rw [Race.step_done hflow]
    exact ⟨stages, order, h⟩
  | refused e =>
    rw [hs] at hflow
    rw [Race.step_done hflow]
    exact ⟨stages, order, h⟩

/-- Whatever the order of their steps, the runs keep what they rely on. -/
theorem run (hb : before.permissions.Sound) (h : Ongoing before calls stages order race)
    (schedule : List (Fin n)) :
    ∃ stages' order', Ongoing before calls stages' order' (race.run Tables.answer schedule) := by
  refine Race.run_preserves
    (I := fun race => ∃ stages order, Ongoing before calls stages order race) ?_ schedule ⟨_, _, h⟩
  rintro race i ⟨stages, order, h⟩
  exact h.step hb i

end Ongoing

/-! ## All runs done -/

/-- Batches to be granted side by side, none of them begun. -/
def grantRace {σ : Type} (calls : Fin n → BatchCall) (s : σ) :
    Race (Fin n) (Except AdminError Unit) σ :=
  ⟨fun i => Admin.grant (calls i).role (calls i).batch, s, []⟩

/-- At the beginning nothing belongs to any run. -/
lemma Ongoing.start {before : Tables} (hb : before.permissions.Sound)
    (calls : Fin n → BatchCall) :
    ∃ stages, Ongoing before calls stages [] (grantRace calls before) := by
  choose stages hflow hfits howned hstage using fun i => Stage.exists_flow_grant (calls i)
  have hnone : ((List.finRange n).flatMap fun i => (stages i).owned (calls i)) = [] :=
    List.flatMap_eq_nil_iff.2 fun i _ => howned i
  refine ⟨stages, ?_⟩
  constructor
  case flows => exact hflow
  case fits => exact hfits
  case tables => rfl
  case stored =>
    rw [hnone, List.append_nil]
    exact .refl _
  case ids => exact hb.ids
  case grants => simp [grantRace]
  case nodup => exact List.nodup_nil
  case mem_order => simp [hstage]
  case storers => simp [howned]
  case deletes => exact .nil

/-- What batches granted side by side come to, when those that were granted were granted in some
order. -/
structure Settled (before after : Tables) (calls : Fin n → BatchCall)
    (results : Fin n → Except AdminError Unit) (order : List (Fin n))
    (trace : List (Fin n × Step)) : Prop where
  users : after.users = before.users
  roles : after.roles = before.roles
  nodup : order.Nodup
  mem_order : ∀ i, i ∈ order ↔ results i = .ok ()
  permissions : after.permissions.permissions.Perm
    (before.permissions.permissions ++ order.flatMap fun i => (calls i).batch)
  ids : after.permissions.ids.Nodup
  disjoint : ∀ i ∈ order, ∀ j ∈ order, i ≠ j →
    List.Disjoint ((calls i).batch.map Permission.id) ((calls j).batch.map Permission.id)
  grants : after.permissions.grants =
    before.permissions.grants ++ order.flatMap fun i => grantRows (calls i).role (calls i).batch
  deletes : DeletesOwn trace

/-- Where all that is outside some members comes to nothing, only these count, in any order. -/
lemma flatMap_perm {ι α : Type} [DecidableEq ι] {l order : List ι} {f : ι → List α}
    (hl : l.Nodup) (horder : order.Nodup) (hsub : ∀ i ∈ order, i ∈ l)
    (hrest : ∀ i ∈ l, i ∉ order → f i = []) : (l.flatMap f).Perm (order.flatMap f) := by
  have hmem : order.Perm (l.filter (· ∈ order)) := by
    refine (List.perm_ext_iff_of_nodup horder (hl.filter _)).2 fun i => ?_
    rw [List.mem_filter, decide_eq_true_iff]
    exact ⟨fun hi => ⟨hsub i hi, hi⟩, And.right⟩
  have hsplit : l.Perm (order ++ l.filter (fun i => !decide (i ∈ order))) :=
    (List.filter_append_perm (fun i => decide (i ∈ order)) l).symm.trans (hmem.symm.append_right _)
  have hnil : (l.filter fun i => !decide (i ∈ order)).flatMap f = [] := by
    rw [List.flatMap_eq_nil_iff]
    intro i hi
    obtain ⟨hi, hout⟩ := List.mem_filter.1 hi
    exact hrest i hi (by simpa using hout)
  have hperm := hsplit.flatMap_right f
  rwa [List.flatMap_append, hnil, List.append_nil] at hperm

/-- When all runs are done, what is owned are the batches that were granted. -/
lemma Ongoing.settled (h : Ongoing before calls stages order race)
    {results : Fin n → Except AdminError Unit}
    (hdone : ∀ i, (race.flows i).result? = some (results i)) :
    Settled before race.state calls results order race.trace := by
  have hends : ∀ i, (stages i = .granted ∧ results i = .ok ()) ∨
      (stages i ≠ .granted ∧ (stages i).owned (calls i) = [] ∧ ∃ e, results i = .error e) :=
    fun i => Stage.of_flow_done ((h.flows i).symm.trans (Flow.result?_eq_some.1 (hdone i)))
  have hmem : ∀ i, i ∈ order ↔ results i = .ok () := by
    intro i
    rw [h.mem_order]
    rcases hends i with ⟨hs, hr⟩ | ⟨hs, -, e, hr⟩
    · simp [hs, hr]
    · simp [hs, hr]
  have hbatch : ∀ i ∈ order, (stages i).owned (calls i) = (calls i).batch := by
    intro i hi
    rw [(h.mem_order i).1 hi]
    rfl
  refine ⟨?_, ?_, h.nodup, hmem, ?_, h.ids, ?_, h.grants, h.deletes⟩
  · rw [h.tables]
    rfl
  · rw [h.tables]
    rfl
  · -- A run that is done and was not granted owns nothing, so what is owned is what was granted.
    have hrest : ∀ i ∈ List.finRange n, i ∉ order → (stages i).owned (calls i) = [] := by
      intro i _ hi
      rcases hends i with ⟨hs, -⟩ | ⟨-, howned, -⟩
      · exact absurd ((h.mem_order i).2 hs) hi
      · exact howned
    have howned := flatMap_perm (List.nodup_finRange n) h.nodup
      (fun i _ => List.mem_finRange i) hrest
    rw [List.flatMap_congr hbatch] at howned
    exact h.stored.trans (howned.append_left _)
  · intro i hi j hj hne id hidi hidj
    -- Two granted batches are owned by two runs at once, and what is owned shares no id.
    have hnodup := h.nodup_owned_foreign i
    rw [List.map_append, hbatch i hi] at hnodup
    obtain ⟨q, hq, rfl⟩ := List.mem_map.1 hidj
    rw [← hbatch j hj] at hq
    exact List.disjoint_of_nodup_append hnodup hidi
      (List.mem_map_of_mem (mem_foreign_of_owned hne.symm hq))

/-- Batches granted side by side do not damage one another: each is granted as a whole or leaves
nothing, and no run deletes what another has stored. -/
theorem grants_side_by_side (operations : List Operation) (calls : Fin n → BatchCall)
    (schedule : List (Fin n)) (results : Fin n → Except AdminError Unit)
    (hdone : ∀ i, (((grantRace calls (Operation.reached operations)).run Stores.answer
      schedule).flows i).result? = some (results i)) :
    let race := (grantRace calls (Operation.reached operations)).run Stores.answer schedule
    ∃ (before after : Tables) (order : List (Fin n)),
      Operation.reached operations = before.stores ∧ race.state = after.stores ∧
        Settled before after calls results order race.trace := by
  intro race
  obtain ⟨t, ht, hreached⟩ := Operation.exists_tables_reached operations
  obtain ⟨stages, hstart⟩ := Ongoing.start ht.permissions calls
  obtain ⟨stages', order, hrun⟩ := hstart.run ht.permissions schedule
  have hrace : race = ((grantRace calls t).run Tables.answer schedule).mapState Tables.stores := by
    show (grantRace calls (Operation.reached operations)).run Stores.answer schedule = _
    rw [hreached, ← Race.run_stores]
    rfl
  have hflows : ∀ i, (((grantRace calls t).run Tables.answer schedule).flows i).result? =
      some (results i) := by
    intro i
    have hi : (race.flows i).result? = some (results i) := hdone i
    rw [hrace] at hi
    exact hi
  refine ⟨t, ((grantRace calls t).run Tables.answer schedule).state, order, hreached, ?_, ?_⟩
  · rw [hrace]
    rfl
  · rw [hrace]
    exact hrun.settled hflows

/-- Two batches that share an id: the second finds it taken, takes back what it stored before, and
leaves the first alone. -/
theorem grants_side_by_side_sharing :
    let role := Role.make (.ofNat 1) "role" "" default
    let p : Permission := ⟨.ofNat 2, "a", "all", ""⟩
    let q : Permission := ⟨.ofNat 3, "b", "all", ""⟩
    let calls : Fin 2 → BatchCall := ![⟨role.id, [p]⟩, ⟨role.id, [q, p]⟩]
    let race := (grantRace calls (Operation.reached [.roles (.create role)])).run Stores.answer
      [0, 1, 0, 1, 0, 1, 0, 1, 1, 1, 0]
    let results := ![.ok (), .error (.store (.conflict PermissionTable.entity p.id.text))]
    ∃ (before after : Tables) (order : List (Fin 2)),
      Operation.reached [.roles (.create role)] = before.stores ∧ race.state = after.stores ∧
        Settled before after calls results order race.trace := by
  intro role p q calls race results
  refine grants_side_by_side [.roles (.create role)] calls _ results ?_
  have hreached : Operation.reached [.roles (.create role)] =
      Tables.stores ⟨[], ⟨[role], []⟩, .empty⟩ := by
    rw [Operation.reached, ← Tables.stores_empty, Flow.run_stores]
    rfl
  rw [hreached]
  show ∀ i, ((((grantRace calls ⟨[], ⟨[role], []⟩, .empty⟩).mapState Tables.stores).run
    Stores.answer _).flows i).result? = _
  rw [Race.run_stores]
  decide

end Ongoing

end Gatehouse
