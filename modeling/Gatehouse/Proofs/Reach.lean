import Gatehouse.Store.Shelf
import Mathlib.Data.Set.Basic
import Mathlib.Logic.Relation
import Mathlib.Tactic.Lemma

/-!
# What a request reaches

A store that fails by rule passes requests on to one installed before it, so a request may come to
several stores, one behind the other.  They are its chain (`Shelf.chain`).  A request reads and
changes nothing else: the stores outside the chain stay as they are (`Shelf.callAt_frame`), and the
answer and what becomes of the chain depend on the chain alone (`Shelf.callAt_congr`).

Who passes on to whom is settled when a store is installed and no request changes it
(`Shelf.passesOn_callAt`), so the chain of a place stays the same.
-/

namespace Gatehouse.Shelf

variable {Op : Type} [Storage Op] {installed installed' : List (Backing Op)} {place : Nat}

/-! ## Chains -/

/-- The store at one place passes requests on to the store at another. -/
def PassesOn (installed : List (Backing Op)) (place inner : Nat) : Prop :=
  inner < place ∧ ∃ rules, installed[place]? = some (.faulty rules inner)

/-- The places a request to the store at a place may come to. -/
def chain (installed : List (Backing Op)) (place : Nat) : Set Nat :=
  {q | Relation.ReflTransGen (PassesOn installed) place q}

lemma mem_chain_self (installed : List (Backing Op)) (place : Nat) :
    place ∈ chain installed place := .refl

lemma PassesOn.chain_subset {inner : Nat} (h : PassesOn installed place inner) :
    chain installed inner ⊆ chain installed place := fun _ hq => .head h hq

lemma le_of_mem_chain {q : Nat} (h : q ∈ chain installed place) : q ≤ place := by
  induction h with
  | refl => exact le_rfl
  | tail _ hpass ih => exact hpass.1.le.trans ih

/-- The stores at the places are the same. -/
def AgreeOn (places : Set Nat) (installed installed' : List (Backing Op)) : Prop :=
  ∀ q ∈ places, installed[q]? = installed'[q]?

namespace AgreeOn

variable {places : Set Nat} {installed'' : List (Backing Op)}

lemma refl (places : Set Nat) (installed : List (Backing Op)) :
    AgreeOn places installed installed := fun _ _ => rfl

lemma symm (h : AgreeOn places installed installed') : AgreeOn places installed' installed :=
  fun q hq => (h q hq).symm

lemma trans (h : AgreeOn places installed installed') (h' : AgreeOn places installed' installed'') :
    AgreeOn places installed installed'' := fun q hq => (h q hq).trans (h' q hq)

lemma mono {fewer : Set Nat} (h : AgreeOn places installed installed') (hle : fewer ⊆ places) :
    AgreeOn fewer installed installed' := fun q hq => h q (hle hq)

/-- The same store is put to a place where there was the same store before. -/
lemma set (h : AgreeOn places installed installed')
    (hplace : installed[place]? = installed'[place]?) (backing : Backing Op) :
    AgreeOn places (installed.set place backing) (installed'.set place backing) := by
  have hlength : place < installed.length ↔ place < installed'.length := by
    have hsome := congrArg (fun backing => backing.isSome = true) hplace
    simpa only [isSome_getElem?, eq_iff_iff] using hsome
  intro q hq
  rw [List.getElem?_set, List.getElem?_set, h q hq]
  simp only [hlength]

lemma set_right (h : AgreeOn places installed installed') (hplace : place ∉ places)
    (backing : Backing Op) : AgreeOn places installed (installed'.set place backing) := by
  intro q hq
  rw [List.getElem?_set_ne (ne_of_mem_of_not_mem hq hplace).symm]
  exact h q hq

lemma append (h : AgreeOn places installed installed')
    (hlength : installed.length = installed'.length) (backing : Backing Op) :
    AgreeOn places (installed ++ [backing]) (installed' ++ [backing]) := by
  intro q hq
  rw [List.getElem?_append, List.getElem?_append, hlength, h q hq]

end AgreeOn

/-- Whoever stands at the place passes requests on as the one before it did. -/
lemma passesOn_set {backing : Backing Op}
    (h : ∀ inner, (∃ rules, backing = .faulty rules inner) ↔
      ∃ rules, installed[place]? = some (.faulty rules inner))
    (hplace : installed[place]?.isSome) :
    PassesOn (installed.set place backing) = PassesOn installed := by
  funext p inner
  by_cases hp : place = p
  · subst hp
    have hlt : place < installed.length := by simpa only [isSome_getElem?] using hplace
    simp only [PassesOn, List.getElem?_set_self hlt, Option.some.injEq, h]
  · simp only [PassesOn, List.getElem?_set_ne hp]

lemma passesOn_set_memory {table table' : Storage.Table Op}
    (h : installed[place]? = some (.memory table)) :
    PassesOn (installed.set place (.memory table')) = PassesOn installed :=
  passesOn_set (by simp [h]) (Option.isSome_of_eq_some h)

lemma passesOn_set_faulty {rules rules' : List (FaultRule (Storage.Action Op))} {inner : Nat}
    (h : installed[place]? = some (.faulty rules inner)) :
    PassesOn (installed.set place (.faulty rules' inner)) = PassesOn installed :=
  passesOn_set (by simp [h]) (Option.isSome_of_eq_some h)

/-- No request changes who passes on to whom. -/
lemma passesOn_callAt (installed : List (Backing Op)) (place : Nat) (op : Op) :
    PassesOn (callAt installed place op).2 = PassesOn installed := by
  -- The cases follow `callAt`; the fifth is the one in which the request is passed on.
  fun_induction callAt installed place op with
  | case1 => rfl
  | case2 => rfl
  | case3 _ _ _ h => exact passesOn_set_memory h
  | case4 _ _ _ _ h => exact passesOn_set_faulty h
  | case5 _ _ _ _ h _ _ _ ih => exact ih.trans (passesOn_set_faulty h)
  | case6 => rfl

lemma chain_callAt (installed : List (Backing Op)) (p : Nat) (op : Op) (place : Nat) :
    chain (callAt installed p op).2 place = chain installed place := by
  simp only [chain, passesOn_callAt]

lemma length_callAt (installed : List (Backing Op)) (place : Nat) (op : Op) :
    (callAt installed place op).2.length = installed.length := by
  fun_induction callAt installed place op with
  | case1 => rfl
  | case2 => rfl
  | case3 => exact List.length_set
  | case4 => exact List.length_set
  | case5 _ _ _ _ _ _ _ _ ih => exact ih.trans List.length_set
  | case6 => rfl

/-- Shelves that agree on the chain of a place have the same chain there. -/
lemma chain_congr (h : AgreeOn (chain installed place) installed installed') :
    chain installed' place = chain installed place := by
  -- Who passes on to whom is read off the stores of the chain, and there the two agree.
  have hpass : ∀ p ∈ chain installed place, ∀ inner,
      PassesOn installed' p inner ↔ PassesOn installed p inner := fun p hp inner => by
    simp only [PassesOn, h p hp]
  ext q
  constructor
  · intro hq
    induction hq with
    | refl => exact mem_chain_self installed place
    | tail _ hlast ih => exact .tail ih ((hpass _ ih _).1 hlast)
  · intro hq
    induction hq with
    | refl => exact mem_chain_self installed' place
    | tail hmem hlast ih => exact .tail ih ((hpass _ hmem _).2 hlast)

/-! ## What a request changes -/

/-- A request changes no store outside its chain. -/
theorem callAt_frame (installed : List (Backing Op)) (place : Nat) (op : Op) :
    AgreeOn (chain installed place)ᶜ installed (callAt installed place op).2 := by
  have hself : ∀ (installed : List (Backing Op)) (place : Nat),
      place ∉ (chain installed place)ᶜ := fun installed place hnot =>
    hnot (mem_chain_self installed place)
  fun_induction callAt installed place op with
  | case1 => exact .refl _ _
  | case2 => exact .refl _ _
  | case3 => exact (AgreeOn.refl _ _).set_right (hself _ _) _
  | case4 => exact (AgreeOn.refl _ _).set_right (hself _ _) _
  | case5 installed place rules inner h rules' _ hlt ih =>
    refine ((AgreeOn.refl _ _).set_right (hself _ _) _).trans (ih.mono ?_)
    have hpass : PassesOn installed place inner := ⟨hlt, rules, h⟩
    have hchain : chain (installed.set place (.faulty rules' inner)) inner =
        chain installed inner := by simp only [chain, passesOn_set_faulty h]
    rw [hchain]
    exact fun q hq hmem => hq (hpass.chain_subset hmem)
  | case6 => exact .refl _ _

/-- The answer to a request, and what it makes of its chain, come from the chain alone. -/
theorem callAt_congr (place : Nat) (op : Op) :
    ∀ {installed installed' : List (Backing Op)},
      AgreeOn (chain installed place) installed installed' →
        (callAt installed place op).1 = (callAt installed' place op).1 ∧
          AgreeOn (chain installed place) (callAt installed place op).2
            (callAt installed' place op).2 := by
  induction place using Nat.strongRecOn with
  | ind place ih =>
    intro installed installed' hagree
    have hplace := hagree place (mem_chain_self _ _)
    have hset := fun backing => hagree.set hplace backing
    unfold callAt
    rcases h : installed[place]? with _ | table | ⟨rules, inner⟩ | _
    · simp only [← hplace, h]
      exact ⟨trivial, hagree⟩
    · simp only [← hplace, h]
      exact ⟨trivial, hset _⟩
    · simp only [← hplace, h]
      rcases htrip : FaultRule.trip (Storage.action op) (Storage.subject? op) rules with
        ⟨_ | e, rules'⟩
      · by_cases hinner : inner < place
        · simp only [if_pos hinner]
          have hpass : PassesOn installed place inner := ⟨hinner, rules, h⟩
          have hchain : chain (installed.set place (.faulty rules' inner)) inner =
              chain installed inner := by simp only [chain, passesOn_set_faulty h]
          have hnow := hset (.faulty rules' inner)
          -- The request is passed on: the shelves with the rules counted up agree on the rest of
          -- the chain.
          have hbehind : AgreeOn (chain (installed.set place (.faulty rules' inner)) inner)
              (installed.set place (.faulty rules' inner))
              (installed'.set place (.faulty rules' inner)) := by
            rw [hchain]
            exact hnow.mono hpass.chain_subset
          obtain ⟨hanswer, hafter⟩ := ih inner hinner hbehind
          refine ⟨hanswer, fun q hq => ?_⟩
          -- In the rest of the chain the induction says what becomes of a store; the others are not
          -- touched by what is passed on.
          by_cases hq' : q ∈ chain (installed.set place (.faulty rules' inner)) inner
          · exact hafter q hq'
          · have hframe := callAt_frame (installed.set place (.faulty rules' inner)) inner op
            have hframe' := callAt_frame (installed'.set place (.faulty rules' inner)) inner op
            rw [chain_congr hbehind] at hframe'
            exact (hframe q hq').symm.trans ((hnow q hq).trans (hframe' q hq'))
        · simp only [if_neg hinner]
          exact ⟨trivial, hagree⟩
      · exact ⟨rfl, hset _⟩
    · simp only [← hplace, h]
      exact ⟨trivial, hagree⟩

/-! ## What a request cannot tell apart -/

/-- Who stands in one of the places passes requests on within them only. -/
def Closed (places : Set Nat) (installed : List (Backing Op)) : Prop :=
  ∀ p ∈ places, ∀ inner, PassesOn installed p inner → inner ∈ places

lemma closed_chain (installed : List (Backing Op)) (place : Nat) :
    Closed (chain installed place) installed := fun _ hp _ hpass => .tail hp hpass

variable {places : Set Nat}

lemma Closed.callAt (h : Closed places installed) (p : Nat) (op : Op) :
    Closed places (callAt installed p op).2 := by
  unfold Closed
  rw [passesOn_callAt]
  exact h

lemma Closed.chain_subset (h : Closed places installed) (hplace : place ∈ places) :
    chain installed place ⊆ places := by
  intro q hq
  induction hq with
  | refl => exact hplace
  | tail _ hpass ih => exact h _ ih _ hpass

/-- A store that is installed last is not among the places, and nobody there knows of it. -/
lemma Closed.append (h : Closed places installed) (hplaces : ∀ p ∈ places, p < installed.length)
    (backing : Backing Op) : Closed places (installed ++ [backing]) := by
  rintro p hp inner ⟨hlt, rules, hrules⟩
  rw [List.getElem?_append_left (hplaces p hp)] at hrules
  exact h p hp inner ⟨hlt, rules, hrules⟩

/-- Where requests do not find back out of some places, what was done there does not show
outside. -/
theorem callAt_outside (p : Nat) (op : Op) :
    ∀ {installed installed' : List (Backing Op)}, AgreeOn placesᶜ installed installed' →
      Closed places installed → Closed places installed' →
        AgreeOn placesᶜ (callAt installed p op).2 (callAt installed' p op).2 := by
  induction p using Nat.strongRecOn with
  | ind p ih =>
    intro installed installed' hagree hclosed hclosed'
    -- A request to one of the places stays within them, so outside all is as it was; any other
    -- finds the same store on both shelves.
    by_cases hp : p ∈ places
    · have hframe := callAt_frame installed p op
      have hframe' := callAt_frame installed' p op
      have hout : placesᶜ ⊆ (chain installed p)ᶜ :=
        fun q hq hmem => hq (hclosed.chain_subset hp hmem)
      have hout' : placesᶜ ⊆ (chain installed' p)ᶜ :=
        fun q hq hmem => hq (hclosed'.chain_subset hp hmem)
      exact (hframe.mono hout).symm.trans (hagree.trans (hframe'.mono hout'))
    · have hplace := hagree p hp
      have hset := fun backing => hagree.set hplace backing
      unfold callAt
      rcases h : installed[p]? with _ | table | ⟨rules, inner⟩ | _
      · simp only [← hplace, h]
        exact hagree
      · simp only [← hplace, h]
        exact hset _
      · have h' : installed'[p]? = some (.faulty rules inner) := hplace.symm.trans h
        simp only [h']
        rcases htrip : FaultRule.trip (Storage.action op) (Storage.subject? op) rules with
          ⟨_ | e, rules'⟩
        · by_cases hinner : inner < p
          · simp only [if_pos hinner]
            refine ih inner hinner (hset _) ?_ ?_
            · simpa only [Closed, passesOn_set_faulty h] using hclosed
            · simpa only [Closed, passesOn_set_faulty h'] using hclosed'
          · simp only [if_neg hinner]
            exact hagree
        · exact hset _
      · simp only [← hplace, h]
        exact hagree

end Gatehouse.Shelf
