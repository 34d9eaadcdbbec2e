import Gatehouse.Proofs.BatchGrant
import Gatehouse.Proofs.Interruptions

/-!
# Swaps of stores in the middle of a call

Granting a batch and reading the roles of a user are flows that ask once which permission store is
in use (`Flow.AsksOnce`), and all requests that follow go to the place that was answered.  What is
known of interrupted calls therefore holds of both, and a batch is stored and taken back in one
store although others are put to use meanwhile.
-/

namespace Gatehouse

open Gatehouse.Shelf (AgreeOn chain)

/-! ## Granting a batch -/

namespace Admin

lemma only_discard (place : Nat) (ids : List Uuid) :
    (discard place ids).Only (Call.IsTo place) := by
  induction ids with
  | nil => trivial
  | cons id ids ih =>
    rw [discard_cons]
    exact ⟨⟨_, rfl⟩, fun _ => ih⟩

lemma only_undo (place : Nat) (stored : List Uuid) (e : StoreError) :
    (undo place stored e).Only (Call.IsTo place) :=
  (only_discard place stored).bind fun _ => .pure _

lemma only_storeAndGrant (place : Nat) (role : Uuid) (rest : List Permission) :
    ∀ stored, (storeAndGrant place role stored rest).Only (Call.IsTo place) := by
  induction rest with
  | nil =>
    intro stored
    rw [storeAndGrant_nil]
    refine ⟨⟨_, rfl⟩, fun answer => ?_⟩
    obtain e | _ := answer
    · exact only_undo place stored e
    · exact .pure _
  | cons p rest ih =>
    intro stored
    rw [storeAndGrant_cons]
    refine ⟨⟨_, rfl⟩, fun answer => ?_⟩
    obtain e | _ := answer
    · exact only_undo place stored e
    · exact ih _

/-- How granting a batch goes on when the place of the permission store is known. -/
def GoesOn (role : Uuid) (batch : List Permission)
    (next : Nat → Flow (Except AdminError Unit)) : Prop :=
  Permission.validateBatch batch = .ok () ∧ next = fun place => storeAndGrant place role [] batch

lemma asksOnce_grant (role : Uuid) (batch : List Permission) :
    (grant role batch).AsksOnce (GoesOn role batch) := by
  rw [grant_eq]
  split
  · exact .done _
  · next hvalid =>
    -- Two steps come before the question: which role store is in use, and whether it has the role.
    refine .spares trivial fun place => .spares trivial fun found => ?_
    obtain e | _ | _ := found
    · exact .done _
    · exact .done _
    · exact .asks ⟨hvalid, rfl⟩

lemma endsWithin_discard (place : Nat) (ids : List Uuid) :
    (discard place ids).EndsWithin ids.length := by
  induction ids with
  | nil => trivial
  | cons id ids ih =>
    rw [discard_cons]
    exact fun _ => ih

lemma endsWithin_undo (place : Nat) (stored : List Uuid) (e : StoreError) :
    (undo place stored e).EndsWithin stored.length :=
  (endsWithin_discard place stored).bind fun _ => .done 0 _

/-- Each permission is stored once and taken back at most once. -/
lemma endsWithin_storeAndGrant (place : Nat) (role : Uuid) (rest : List Permission) :
    ∀ stored, (storeAndGrant place role stored rest).EndsWithin
      (2 * rest.length + stored.length + 1) := by
  -- The bound pays twice for what is still to be stored and once for what is stored already, so it
  -- never grows along the way.
  induction rest with
  | nil =>
    intro stored
    rw [storeAndGrant_nil]
    intro answer
    obtain e | _ := answer
    · exact (endsWithin_undo place stored e).mono (by simp)
    · exact .done _ _
  | cons p rest ih =>
    intro stored
    rw [storeAndGrant_cons]
    intro answer
    obtain e | _ := answer
    · exact (endsWithin_undo place stored e).mono (by omega)
    · refine (ih (stored ++ [p.id])).mono ?_
      rw [List.length_append, List.length_singleton, List.length_cons]
      omega

lemma endsWithin_grant (role : Uuid) (batch : List Permission) :
    (grant role batch).EndsWithin (2 * batch.length + 4) := by
  rw [grant_eq]
  split
  · exact .done _ _
  · intro place found
    obtain e | _ | _ := found
    · exact .done _ _
    · exact .done _ _
    · exact fun place => endsWithin_storeAndGrant place role batch []

/-- Stores on which the role is found, with the permission store in use that is in use in the
world. -/
structure FindsSame (role : Uuid) (w : World) (u : Stores) : Prop where
  role : ∃ r, (Stores.answer (.roles u.roles.inUse.current (.find role)) u).1 = .ok (some r)
  inUse : u.permissions.inUse.current = w.permissionsInUse
  same : AgreeOn (chain w.permissionStores w.permissionsInUse) w.permissionStores
    u.permissions.installed

/-- A call that has just asked has the same left to do as one that nobody interrupts. -/
lemma exists_inStep {role : Uuid} {batch : List Permission}
    {asking : Interrupted (Except AdminError Unit)} {u : Stores}
    (hask : asking.flow = .call .permissionsInUse fun place => storeAndGrant place role [] batch)
    (hvalid : Permission.validateBatch batch = .ok ()) (h : FindsSame role asking.world u) :
    ∃ u' : Stores,
      Interrupted.InStep asking.world.permissionsInUse
          (chain asking.world.permissionStores asking.world.permissionsInUse)
          (asking.turn .own) u' ∧
        (asking.turn .own).flow.run Stores.answer u' =
          (grant role batch).run Stores.answer u := by
  obtain ⟨⟨r, hr⟩, hinUse, hsame⟩ := h
  have hfound : (lookUpRole role batch u.roles.inUse.current).run Stores.answer u =
      (startStoring role batch).run Stores.answer
        (Stores.answer (.roles u.roles.inUse.current (.find role)) u).2 := by
    rw [lookUpRole, Flow.run_call, hr]
  refine ⟨(Stores.answer (.roles u.roles.inUse.current (.find role)) u).2, ?_, ?_⟩
  · rw [Interrupted.turn_own_call hask]
    exact ⟨only_storeAndGrant asking.world.permissionsInUse role batch [], rfl, hsame⟩
  · rw [Interrupted.turn_own_call hask, grant_eq, hvalid]
    refine Eq.trans ?_ hfound.symm
    rw [startStoring, Flow.run_call]
    exact congrArg (fun place => (storeAndGrant place role [] batch).run Stores.answer _)
      hinUse.symm

end Admin

/-! ## Reading the roles of a user -/

namespace Resolve

lemma only_withPermissions (place : Nat) (roles : List Role) :
    (withPermissions place roles).Only (Call.IsTo place) := by
  induction roles with
  | nil => exact .pure _
  | cons role roles ih =>
    refine .bind (.permissions ⟨_, rfl⟩) fun answer => ?_
    obtain e | _ := answer
    · exact .pure _
    · refine ih.bind fun answer => ?_
      obtain e | _ := answer
      · exact .pure _
      · exact .pure _

lemma asksOnce_rolesOf (user : Uuid) :
    (rolesOf user).AsksOnce fun next =>
      ∃ roles, next = fun place => withPermissions place roles := by
  refine .spares trivial fun place => .spares trivial fun answer => ?_
  obtain e | _ | ⟨role, roles⟩ := answer
  · exact .done _
  · exact .done _
  · exact .asks ⟨role :: roles, rfl⟩

end Resolve

/-! ## Swaps in the middle of a call -/

/-- However swaps of stores, and whatever else other tasks do, fall between the steps of a call: it
keeps to the one permission store that was in use when it asked.  A batch is granted or taken back
there; and if nobody else changes that store from then on, then it ends as it ends on stores where
the role is found, with the same permission store in use, when nobody interrupts it.  Likewise the
permissions of all roles of a user are read from one store. -/
theorem swaps_never_tear_a_call (t : Tables) :
    (∀ role batch,
      let call := Interrupted.start (Admin.grant role batch) (.start t)
      call.KeepsToStore ∧
        (∀ schedule, 2 * batch.length + 4 ≤ schedule.countP Turn.isOwn →
          ∃ result, (call.run schedule).flow = .done result) ∧
        ∀ earlier later, (call.run earlier).Asks →
          let asking := (call.run earlier).world
          let places := chain asking.permissionStores asking.permissionsInUse
          ((call.run earlier).turn .own).Undisturbed places later →
            ∀ u : Stores, Admin.FindsSame role asking u →
              let final := call.run (earlier ++ .own :: later)
              let uninterrupted := (Admin.grant role batch).run Stores.answer u
              ∀ result, final.flow = .done result →
                result = uninterrupted.1 ∧
                  AgreeOn places final.world.permissionStores
                    uninterrupted.2.permissions.installed) ∧
      ∀ user, (Interrupted.start (Resolve.rolesOf user) (.start t)).KeepsToStore := by
  constructor
  · intro role batch call
    have hstart : Interrupted.Unasked (Admin.GoesOn role batch) call call.world :=
      .start (Admin.asksOnce_grant role batch) t
    have honly : ∀ next, Admin.GoesOn role batch next →
        ∀ place, (next place).Only (Call.IsTo place) := by
      rintro _ ⟨-, rfl⟩ place
      exact Admin.only_storeAndGrant place role batch []
    refine ⟨hstart.keepsToStore honly, ?_, ?_⟩
    · exact fun schedule => Interrupted.exists_done_of_endsWithin schedule
        (Admin.endsWithin_grant role batch)
    · intro earlier later hasks asking places hquiet u hu final uninterrupted result hresult
      have hunasked := hstart.of_asks honly hasks
      obtain ⟨next, hask⟩ := hasks
      -- What is left after the question is known from the shape of the flow, so the call and the
      -- uninterrupted run go on alike.
      obtain ⟨hvalid, rfl⟩ := Flow.AsksOnce.of_asks (hask ▸ hunasked.flow)
      obtain ⟨u', hinStep, hrun⟩ := Admin.exists_inStep hask hvalid hu
      have hfinal : final = ((call.run earlier).turn .own).run later :=
        Interrupted.run_append call earlier (.own :: later)
      rw [hfinal] at hresult ⊢
      have hends := hinStep.run later hquiet hresult
      rw [hrun] at hends
      exact ⟨hends.1.symm, hends.2⟩
  · intro user
    refine (Interrupted.Unasked.start (Resolve.asksOnce_rolesOf user) t).keepsToStore ?_
    rintro _ ⟨roles, rfl⟩ place
    exact Resolve.only_withPermissions place roles

/-- Another store is put to use before the first permission of a batch is stored, and the swap is
undone before the batch is granted: it is granted as if nothing had happened, in the store that was
in use at first. -/
theorem swaps_never_tear_a_call_swapped :
    let role := Role.make (.ofNat 1) "role" "" default
    let batch : List Permission := [⟨.ofNat 2, "a", "all", ""⟩, ⟨.ofNat 3, "b", "all", ""⟩]
    let t : Tables := ⟨[], ⟨[role], []⟩, .empty⟩
    let call := Interrupted.start (Admin.grant role.id batch) (.start t)
    let earlier : List Turn := [.own, .own]
    let later : List Turn := [.other (.replacePermissions (.memory .empty)), .own, .own,
      .other (.restore .permissions 0), .own]
    let asking := (call.run earlier).world
    let uninterrupted := (Admin.grant role.id batch).run Stores.answer t.stores
    .ok () = uninterrupted.1 ∧
      AgreeOn (chain asking.permissionStores asking.permissionsInUse)
        (call.run (earlier ++ .own :: later)).world.permissionStores
        uninterrupted.2.permissions.installed := by
  intro role batch t call earlier later asking uninterrupted
  have hasks : (call.run earlier).Asks := by
    refine ⟨fun place => Admin.storeAndGrant place role.id [] batch, ?_⟩
    with_unfolding_all rfl
  have hfinds : Admin.FindsSame role.id asking t.stores := by
    refine ⟨⟨role, ?_⟩, ?_, ?_⟩
    · with_unfolding_all rfl
    · with_unfolding_all rfl
    · intro q _
      with_unfolding_all rfl
  refine ((swaps_never_tear_a_call t).1 role.id batch).2.2 earlier later hasks ?_ t.stores hfinds
    (.ok ()) ?_
  · refine ⟨fun q hq => ?_, fun q _ => ?_, trivial⟩
    · have hle := Shelf.le_of_mem_chain hq
      have hinUse : asking.permissionsInUse = 0 := by with_unfolding_all rfl
      obtain rfl : q = 0 := Nat.le_zero.1 (hinUse ▸ hle)
      with_unfolding_all rfl
    · with_unfolding_all rfl
  · with_unfolding_all rfl

end Gatehouse
