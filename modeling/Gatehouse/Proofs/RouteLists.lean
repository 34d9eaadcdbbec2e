import Gatehouse.Proofs.Pieces
import Mathlib

/-!
# Lists of routes

The routes that need no token are given as text: items between commas and semicolons, each of them
blank or a method and a path with blanks between and around them.  `ListsRoutes` says which texts
stand for which routes, and a text is read as the routes it stands for and as nothing else
(`bypassRoutes_eq_ok_iff`).  A method is written in any letter case, so what ties the reading to the
writing is that capitals are made of a token's letters and of nothing else (`isToken_map_toUpper`);
neither a token nor a path can hold what items and words end at.

An item that is neither blank nor a route is flawed, and the first such item is what the whole text
is refused for (`readItems_of_flawed`).
-/

namespace Gatehouse

open Http Text

/-! ## Tokens -/

namespace Http

variable {c : Char} {cs : List Char}

lemma isTokenChar_toUpper (c : Char) : isTokenChar c.toUpper = isTokenChar c := by
  by_cases hc : c.isLower = true
  · have hletter : c.isAlpha = true := by rw [Char.isAlpha, hc, Bool.or_true]
    rw [isTokenChar, isTokenChar, Char.isAlphanum, Char.isAlphanum, Char.isAlpha_toUpper_eq_isAlpha,
      hletter]
    rfl
  · rw [Char.toUpper_eq_of_not_isLower hc]

lemma isToken_map_toUpper (cs : List Char) : isToken (cs.map Char.toUpper) = isToken cs := by
  have hchars : isTokenChar ∘ Char.toUpper = isTokenChar := funext isTokenChar_toUpper
  rw [isToken, isToken, List.all_map, List.isEmpty_map, hchars]

/-- A method is a token in any letter case. -/
lemma isToken_of_map_toUpper {method : Method} (h : cs.map Char.toUpper = method.name.toList) :
    isToken cs = true := by
  rw [← isToken_map_toUpper, h]
  exact method.isToken

lemma isBlank_of_isTokenChar (h : isTokenChar c = true) : isBlank c = false := by
  have hmarks : tokenMarks.all (!isBlank ·) = true := rfl
  rw [isTokenChar, Bool.or_eq_true, List.contains_iff_mem] at h
  obtain h | h := h
  · simp only [Char.isAlphanum, Char.isAlpha, Char.isUpper, Char.isLower, Char.isDigit,
      UInt32.le_iff_toNat_le, Bool.or_eq_true, Bool.and_eq_true, decide_eq_true_eq] at h
    have hcode : ((65 ≤ c.toNat ∧ c.toNat ≤ 90) ∨ (97 ≤ c.toNat ∧ c.toNat ≤ 122)) ∨
        (48 ≤ c.toNat ∧ c.toNat ≤ 57) := h
    simp only [isBlank, Bool.or_eq_false_iff, Bool.and_eq_false_iff, decide_eq_false_iff_not,
      beq_eq_false_iff_ne]
    omega
  · exact (Bool.not_eq_true' _).mp (List.all_eq_true.1 hmarks c h)

lemma isTokenChar_of_mem (h : isToken cs = true) (hc : c ∈ cs) : isTokenChar c = true := by
  rw [isToken, Bool.and_eq_true, List.all_eq_true] at h
  exact h.2 c hc

/-- The method of a name is the one that has it. -/
lemma Method.ofText?_eq_some_iff {name : String} {method : Method} :
    Method.ofText? name = some method ↔ method.name = name := by
  unfold Method.ofText?
  constructor
  · intro h
    split at h
    · obtain rfl := Option.some.inj h
      rfl
    · exact nomatch h
  · rintro rfl
    exact dif_pos method.isToken

lemma Method.ofText?_eq_none_iff {name : String} :
    Method.ofText? name = none ↔ Http.isToken name.toList = false := by
  unfold Method.ofText?
  split
  · next h => exact iff_of_false (Option.some_ne_none _) (by rw [h]; exact Bool.noConfusion)
  · next h => exact iff_of_true rfl (Bool.eq_false_iff.2 h)

lemma ne_nil_of_isToken (h : isToken cs = true) : cs ≠ [] := by
  rintro rfl
  exact nomatch h

end Http

/-! ## Routes as text -/

/-- Commas and semicolons; routes stand between them. -/
def isRouteMark (c : Char) : Bool := c == ',' || c == ';'

lemma isRouteMark_of_isTokenChar {c : Char} (h : isTokenChar c = true) : isRouteMark c = false := by
  rw [isRouteMark, Bool.or_eq_false_iff, beq_eq_false_iff_ne, beq_eq_false_iff_ne]
  constructor <;> rintro rfl <;> exact absurd h (by decide)

lemma isRouteMark_of_isBlank {c : Char} (h : isBlank c = true) : isRouteMark c = false := by
  rw [isRouteMark, Bool.or_eq_false_iff, beq_eq_false_iff_ne, beq_eq_false_iff_ne]
  constructor <;> rintro rfl <;> exact absurd h (by decide)

namespace BypassRoute

/-- What can stand in a list: a method without small letters, and a path that begins with a slash
and has nothing in it at which a path would end. -/
structure Listable (route : BypassRoute) : Prop where
  method : ∀ c ∈ route.method.name.toList, c.isLower = false
  slash : route.path.toList.head? = some '/'
  path : ∀ c ∈ route.path.toList, isBlank c = false ∧ isRouteMark c = false

/-- The text is the method, in any letter case, and the path, with blanks between them. -/
def Spelled (route : BypassRoute) (cs : List Char) : Prop :=
  ∃ method gap, cs = method ++ gap ++ route.path.toList ∧
    method.map Char.toUpper = route.method.name.toList ∧ gap ≠ [] ∧ ∀ c ∈ gap, isBlank c = true

end BypassRoute

/-- An item is blank, or spells a route with blanks around it. -/
inductive ItemRoutes : List Char → List BypassRoute → Prop
  | blank {w : List Char} : (∀ c ∈ w, isBlank c = true) → ItemRoutes w []
  | route {w cs w' : List Char} {route : BypassRoute} : (∀ c ∈ w, isBlank c = true) →
    route.Spelled cs → (∀ c ∈ w', isBlank c = true) → ItemRoutes (w ++ cs ++ w') [route]

/-- The text lists the routes, item by item. -/
inductive ListsRoutes : List Char → List BypassRoute → Prop
  | item {cs : List Char} {routes : List BypassRoute} : ItemRoutes cs routes → ListsRoutes cs routes
  | next {item rest : List Char} {mark : Char} {first others : List BypassRoute} :
    ItemRoutes item first → isRouteMark mark = true → ListsRoutes rest others →
      ListsRoutes (item ++ mark :: rest) (first ++ others)

/-! ## Words of a route -/

namespace BypassRoute

variable {route : BypassRoute} {ws : List (List Char)} {item : List Char}

lemma ofWords?_pair {method path : List Char} (h : path.head? = some '/') :
    ofWords? [method, path] =
      (Method.ofText? (upperAscii (String.ofList method))).map
        fun m => ⟨m, String.ofList path⟩ := by
  obtain ⟨rest, rfl⟩ := List.head?_eq_some_iff.1 h
  rfl

lemma ofWords?_of_not_pair (h : ∀ method path, ws = [method, path] → path.head? ≠ some '/') :
    ofWords? ws = none := by
  unfold ofWords?
  split
  · exact absurd rfl (h _ _ rfl)
  · rfl

lemma toList_upperAscii_ofList (cs : List Char) :
    (upperAscii (String.ofList cs)).toList = cs.map Char.toUpper := by
  rw [upperAscii, String.toList_ofList, String.toList_ofList]

/-- Two words spell a route when the first is its method in any letter case and the second its path,
which begins with a slash. -/
lemma ofWords?_eq_some_iff : ofWords? ws = some route ↔
    ∃ method path, ws = [method, path] ∧ path.head? = some '/' ∧
      method.map Char.toUpper = route.method.name.toList ∧ path = route.path.toList := by
  constructor
  · intro h
    by_cases hpair : ∃ method path, ws = [method, path] ∧ path.head? = some '/'
    · obtain ⟨method, path, rfl, hslash⟩ := hpair
      rw [ofWords?_pair hslash, Option.map_eq_some_iff] at h
      obtain ⟨m, hm, rfl⟩ := h
      rw [Method.ofText?_eq_some_iff] at hm
      exact ⟨method, path, rfl, hslash, by rw [hm, toList_upperAscii_ofList],
        String.toList_ofList.symm⟩
    · rw [ofWords?_of_not_pair fun method path hws hslash => hpair ⟨method, path, hws, hslash⟩] at h
      exact nomatch h
  · rintro ⟨method, path, rfl, hslash, hmethod, rfl⟩
    have hname : route.method.name = upperAscii (String.ofList method) := by
      rw [← String.toList_inj, toList_upperAscii_ofList, hmethod]
    rw [ofWords?_pair hslash, Method.ofText?_eq_some_iff.2 hname, Option.map_some,
      String.ofList_toList]

/-- Words spell no route when they are not two, or the second does not begin with a slash, or the
first is no method. -/
lemma ofWords?_eq_none_iff : ofWords? ws = none ↔
    ws.length ≠ 2 ∨ ∃ method path, ws = [method, path] ∧
      (path.head? ≠ some '/' ∨ isToken method = false) := by
  by_cases hlength : ws.length = 2
  · obtain ⟨method, path, rfl⟩ := List.length_eq_two.1 hlength
    have hwords : (([method, path] : List (List Char)).length ≠ 2 ∨
        ∃ method' path', [method, path] = [method', path'] ∧
          (path'.head? ≠ some '/' ∨ isToken method' = false)) ↔
        path.head? ≠ some '/' ∨ isToken method = false := by
      simp
    rw [hwords]
    by_cases hslash : path.head? = some '/'
    · rw [ofWords?_pair hslash, Option.map_eq_none_iff, Method.ofText?_eq_none_iff,
        toList_upperAscii_ofList, isToken_map_toUpper]
      exact (or_iff_right (not_not_intro hslash)).symm
    · refine iff_of_true (ofWords?_of_not_pair fun _ _ hws => ?_) (.inl hslash)
      obtain ⟨-, rfl⟩ : method = _ ∧ path = _ := by simpa using hws
      exact hslash
  · refine iff_of_true (ofWords?_of_not_pair fun _ _ hws => ?_) (.inl hlength)
    exact absurd (congrArg List.length hws) hlength

/-- The words of a route are its method and its path. -/
lemma words_of_item {w cs w' : List Char} (hroute : route.Listable)
    (hw : ∀ c ∈ w, isBlank c = true) (hcs : route.Spelled cs) (hw' : ∀ c ∈ w', isBlank c = true) :
    ofWords? (words (w ++ cs ++ w')) = some route := by
  obtain ⟨method, gap, rfl, hmethod, hne, hgap⟩ := hcs
  have htoken : isToken method = true := isToken_of_map_toUpper hmethod
  have hpath : route.path.toList ≠ [] := fun hnil => by
    have hslash := hroute.slash
    rw [hnil] at hslash
    exact nomatch hslash
  obtain ⟨c, gap, rfl⟩ := List.exists_cons_of_ne_nil hne
  have hblank : ∀ b, (c :: gap ++ route.path.toList).head? = some b → isBlank b = true := by
    intro b hb
    obtain rfl : c = b := Option.some.inj hb
    exact hgap c List.mem_cons_self
  refine ofWords?_eq_some_iff.2 ⟨method, route.path.toList, ?_, hroute.slash, hmethod, rfl⟩
  rw [words_append_blanks _ hw', words_blanks_append hw, List.append_assoc,
    words_word_append (ne_nil_of_isToken htoken)
      (fun c hc => isBlank_of_isTokenChar (isTokenChar_of_mem htoken hc)) hblank,
    words_blanks_append hgap, words_of_word hpath fun c hc => (hroute.path c hc).1]

/-- Words that spell a route come from an item that does. -/
lemma item_of_words (hitem : ∀ c ∈ item, isRouteMark c = false)
    (h : ofWords? (words item) = some route) : route.Listable ∧ ItemRoutes item [route] := by
  obtain ⟨method, path, hwords, hslash, hmethod, rfl⟩ := ofWords?_eq_some_iff.1 h
  obtain ⟨w, rest, rfl, hw, -, -, hrest, hlast⟩ := words_eq_cons_iff.1 hwords
  obtain ⟨gap, w', rfl, hgap, hne, hpath, -, hend⟩ := words_eq_cons_iff.1 hlast
  have hw' : ∀ c ∈ w', isBlank c = true := words_eq_nil_iff.1 hend
  have hgapNe : gap ≠ [] := by
    rintro rfl
    -- Then the path would go on where the method ends, and its slash is no blank.
    have hblank := hrest '/' (by rw [List.nil_append, List.head?_append_of_ne_nil _ hne, hslash])
    exact absurd hblank (by decide)
  refine ⟨⟨?_, hslash, fun c hc => ⟨hpath c hc, hitem c ?_⟩⟩, ?_⟩
  · intro c hc
    rw [← hmethod] at hc
    obtain ⟨b, -, rfl⟩ := List.mem_map.1 hc
    exact Char.isLower_toUpper_eq_false b
  · simp only [List.mem_append]
    exact .inr (.inl (.inr hc))
  · have hsplit : w ++ method ++ (gap ++ route.path.toList ++ w') =
        w ++ (method ++ gap ++ route.path.toList) ++ w' := by simp only [List.append_assoc]
    rw [hsplit]
    exact .route hw ⟨method, gap, rfl, hmethod, hgapNe, hgap⟩ hw'

lemma ofText_of_some {s : String} (h : ofWords? (words s.toList) = some route) :
    ofText s = .ok route := by
  rw [ofText, h]

lemma ofText_of_none {s : String} (h : ofWords? (words s.toList) = none) :
    ofText s = .error (.invalidBypassRoute s) := by
  rw [ofText, h]

end BypassRoute

/-! ## Items -/

variable {item cs : List Char} {items : List (List Char)} {routes first : List BypassRoute}
  {route : BypassRoute}

/-- What stands between marks is read item by item, and blank items are passed over. -/
def readItems (items : List (List Char)) : Except AuthError (List BypassRoute) :=
  (((items.map trim).filter fun piece => !piece.isEmpty).map String.ofList).mapM
    BypassRoute.ofText

lemma bypassRoutes_of_divided {s : String} (h : Divided isRouteMark s.toList items) :
    bypassRoutes s = readItems items :=
  congrArg (List.mapM BypassRoute.ofText) (pieces_of_divided h)

lemma readItems_blank (h : trim item = []) (items : List (List Char)) :
    readItems (item :: items) = (readItems items).map ([] ++ ·) := by
  rw [readItems, List.map_cons, h, List.filter_cons_of_neg (by simp)]
  change readItems items = _
  cases readItems items <;> rfl

lemma readItems_cons (h : trim item ≠ []) (items : List (List Char)) :
    readItems (item :: items) =
      (BypassRoute.ofText (String.ofList (trim item))).bind fun route =>
        (readItems items).map (route :: ·) := by
  rw [readItems, List.map_cons, List.filter_cons_of_pos (by simpa using h), List.map_cons,
    List.mapM_cons]
  cases BypassRoute.ofText (String.ofList (trim item)) with
  | error e => rfl
  | ok route =>
    show (readItems items >>= fun routes => pure (route :: routes)) = _
    cases readItems items <;> rfl

lemma readItems_route (h : trim item ≠ []) (hroute : BypassRoute.ofWords? (words item) = some route)
    (items : List (List Char)) :
    readItems (item :: items) = (readItems items).map (route :: ·) := by
  rw [readItems_cons h, BypassRoute.ofText_of_some (by rwa [String.toList_ofList, words_trim])]
  rfl

/-! ### Flawed items -/

/-- The item is not blank, but it is not two words, or the second does not begin with a slash, or
the first is no method. -/
def FlawedItem (item : List Char) : Prop :=
  trim item ≠ [] ∧ ((words item).length ≠ 2 ∨ ∃ method path, words item = [method, path] ∧
    (path.head? ≠ some '/' ∨ isToken method = false))

lemma flawedItem_iff :
    FlawedItem item ↔ trim item ≠ [] ∧ BypassRoute.ofWords? (words item) = none := by
  rw [FlawedItem, BypassRoute.ofWords?_eq_none_iff]

/-- What stands behind a flawed item is not read. -/
lemma readItems_flawed (h : FlawedItem item) (items : List (List Char)) :
    readItems (item :: items) = .error (.invalidBypassRoute (String.ofList (trim item))) := by
  obtain ⟨hne, hnone⟩ := flawedItem_iff.1 h
  rw [readItems_cons hne, BypassRoute.ofText_of_none (by rwa [String.toList_ofList, words_trim])]
  rfl

/-- An item without a flaw is read as what stands in it, before what is read of the others. -/
lemma readItems_of_not_flawed (h : ¬FlawedItem item) :
    ∃ first, (∀ items, readItems (item :: items) = (readItems items).map (first ++ ·)) ∧
      ((∀ c ∈ item, isRouteMark c = false) →
        (∀ route ∈ first, route.Listable) ∧ ItemRoutes item first) := by
  -- Nothing is asked of the item but that it has no flaw; that no mark is in it is needed only for
  -- what stands in it.
  by_cases hblank : trim item = []
  · exact ⟨[], readItems_blank hblank, fun _ => ⟨fun _ h => absurd h List.not_mem_nil,
      .blank (trim_eq_nil_iff.1 hblank)⟩⟩
  · cases hwords : BypassRoute.ofWords? (words item) with
    | none => exact absurd (flawedItem_iff.2 ⟨hblank, hwords⟩) h
    | some route =>
      refine ⟨[route], readItems_route hblank hwords, fun hitem => ?_⟩
      obtain ⟨hlistable, hroute⟩ := BypassRoute.item_of_words hitem hwords
      exact ⟨List.forall_mem_singleton.2 hlistable, hroute⟩

/-! ### From the text to the routes -/

/-- An item that a route or nothing stands in is read as that. -/
lemma readItems_of_itemRoutes (h : ItemRoutes item first) (hfirst : ∀ route ∈ first, route.Listable)
    (items : List (List Char)) :
    readItems (item :: items) = (readItems items).map (first ++ ·) := by
  cases h with
  | blank hw => exact readItems_blank (trim_eq_nil_iff.2 hw) items
  | @route w cs w' route hw hcs hw' =>
    have hwords := BypassRoute.words_of_item (hfirst route List.mem_cons_self) hw hcs hw'
    refine readItems_route (fun hblank => ?_) hwords items
    rw [words_of_blanks (trim_eq_nil_iff.1 hblank)] at hwords
    exact nomatch hwords

/-- No mark can be in an item that a route or nothing stands in. -/
lemma isRouteMark_of_itemRoutes (h : ItemRoutes item first)
    (hfirst : ∀ route ∈ first, route.Listable) : ∀ c ∈ item, isRouteMark c = false := by
  cases h with
  | blank hw => exact fun c hc => isRouteMark_of_isBlank (hw c hc)
  | @route w cs w' route hw hcs hw' =>
    obtain ⟨method, gap, rfl, hmethod, -, hgap⟩ := hcs
    have htoken : isToken method = true := isToken_of_map_toUpper hmethod
    intro c hc
    simp only [List.mem_append] at hc
    obtain (hc | (hc | hc) | hc) | hc := hc
    · exact isRouteMark_of_isBlank (hw c hc)
    · exact isRouteMark_of_isTokenChar (isTokenChar_of_mem htoken hc)
    · exact isRouteMark_of_isBlank (hgap c hc)
    · exact ((hfirst route List.mem_cons_self).path c hc).2
    · exact isRouteMark_of_isBlank (hw' c hc)

/-- A text that lists routes is read as these routes. -/
lemma readItems_of_lists (h : ListsRoutes cs routes) :
    (∀ route ∈ routes, route.Listable) → readItems (cs.splitOnP isRouteMark) = .ok routes := by
  -- On the way the text is written.  That routes can be listed is needed to know where items end.
  induction h with
  | @item cs routes hitem =>
    intro hroutes
    rw [List.splitOnP_eq_singleton (isRouteMark_of_itemRoutes hitem hroutes),
      readItems_of_itemRoutes hitem hroutes]
    exact congrArg Except.ok (List.append_nil routes)
  | @next item rest mark first others hitem hmark _ ih =>
    intro hroutes
    rw [List.forall_mem_append] at hroutes
    rw [List.splitOnP_append_cons _ _ hmark,
      List.splitOnP_eq_singleton (isRouteMark_of_itemRoutes hitem hroutes.1), List.singleton_append,
      readItems_of_itemRoutes hitem hroutes.1, ih hroutes.2]
    rfl

/-! ### From the routes to the text -/

/-- What is read of the first item stands in it. -/
lemma exists_of_readItems_cons (hitem : ∀ c ∈ item, isRouteMark c = false)
    (h : readItems (item :: items) = .ok routes) :
    ∃ first others, routes = first ++ others ∧ (∀ route ∈ first, route.Listable) ∧
      ItemRoutes item first ∧ readItems items = .ok others := by
  by_cases hflawed : FlawedItem item
  · rw [readItems_flawed hflawed] at h
    exact nomatch h
  · obtain ⟨first, hfirst, hstands⟩ := readItems_of_not_flawed hflawed
    obtain ⟨hlistable, hroutes⟩ := hstands hitem
    rw [hfirst] at h
    cases hothers : readItems items with
    | error e =>
      rw [hothers] at h
      exact nomatch h
    | ok others =>
      rw [hothers] at h
      exact ⟨first, others, (Except.ok.inj h).symm, hlistable, hroutes, rfl⟩

/-- A text that is read as routes lists them. -/
lemma lists_of_readItems (h : Divided isRouteMark cs items) :
    ∀ {routes : List BypassRoute}, readItems items = .ok routes →
      (∀ route ∈ routes, route.Listable) ∧ ListsRoutes cs routes := by
  induction h with
  | last hitem =>
    intro routes hread
    obtain ⟨first, others, rfl, hfirst, hroutes, hothers⟩ := exists_of_readItems_cons hitem hread
    obtain rfl : [] = others := Except.ok.inj hothers
    rw [List.append_nil]
    exact ⟨hfirst, .item hroutes⟩
  | cons hitem hmark _ ih =>
    intro routes hread
    obtain ⟨first, others, rfl, hfirst, hroutes, hothers⟩ := exists_of_readItems_cons hitem hread
    obtain ⟨hlistable, hlists⟩ := ih hothers
    exact ⟨List.forall_mem_append.2 ⟨hfirst, hlistable⟩, .next hroutes hmark hlists⟩

/-- A text is read as the routes it lists, and as nothing else. -/
theorem bypassRoutes_eq_ok_iff {s : String} : bypassRoutes s = .ok routes ↔
    (∀ route ∈ routes, route.Listable) ∧ ListsRoutes s.toList routes := by
  rw [bypassRoutes_of_divided (divided_iff.2 rfl)]
  exact ⟨lists_of_readItems (divided_iff.2 rfl), fun h => readItems_of_lists h.2 h.1⟩

/-! ## What a text is refused for -/

/-- Items are refused for the first flawed one. -/
theorem readItems_of_flawed :
    ∀ {items : List (List Char)}, (∃ item ∈ items, FlawedItem item) →
      ∃ before item after, items = before ++ item :: after ∧ (∀ i ∈ before, ¬FlawedItem i) ∧
        FlawedItem item ∧
          readItems items = .error (.invalidBypassRoute (String.ofList (trim item))) := by
  intro items
  induction items with
  | nil => exact fun ⟨_, h, _⟩ => absurd h List.not_mem_nil
  | cons item items ih =>
    rintro ⟨flawed, hmem, hflawed⟩
    by_cases hitem : FlawedItem item
    · exact ⟨[], item, items, rfl, fun _ h => absurd h List.not_mem_nil, hitem,
        readItems_flawed hitem items⟩
    · obtain rfl | hmem := List.mem_cons.1 hmem
      · exact absurd hflawed hitem
      · obtain ⟨before, first, after, rfl, hbefore, hfirst, hread⟩ := ih ⟨flawed, hmem, hflawed⟩
        refine ⟨item :: before, first, after, rfl, List.forall_mem_cons.2 ⟨hitem, hbefore⟩, hfirst,
          ?_⟩
        obtain ⟨routes, hroutes, -⟩ := readItems_of_not_flawed hitem
        rw [hroutes, hread]
        rfl

/-- Items without a flawed one are read. -/
lemma exists_routes_of_no_flaw (h : ∀ item ∈ items, ¬FlawedItem item) :
    ∃ routes, readItems items = .ok routes := by
  induction items with
  | nil => exact ⟨[], rfl⟩
  | cons item items ih =>
    rw [List.forall_mem_cons] at h
    obtain ⟨others, hothers⟩ := ih h.2
    obtain ⟨first, hfirst, -⟩ := readItems_of_not_flawed h.1
    exact ⟨first ++ others, by rw [hfirst, hothers]; rfl⟩

/-! ## What the setting means -/

/-- Where no gateway is in front, a request passes without a token when its route is in the list. -/
lemma GateConfig.isBypassed_iff {config : GateConfig} (h : config.gatewayMode = false)
    (method : Method) (path : String) :
    config.isBypassed method path = true ↔ ⟨method, path⟩ ∈ config.bypass := by
  rw [isBypassed, h, Bool.false_or, List.any_eq_true]
  constructor
  · rintro ⟨⟨m, p⟩, hmem, hcovers⟩
    rw [BypassRoute.covers, Bool.and_eq_true, beq_iff_eq, beq_iff_eq] at hcovers
    obtain ⟨rfl, rfl⟩ := hcovers
    exact hmem
  · intro hmem
    exact ⟨_, hmem, by rw [BypassRoute.covers, beq_self_eq_true, beq_self_eq_true]; rfl⟩

/-- The routes of settings are read off the text that is given for them. -/
lemma Settings.bypass_of_ofGiven {given : Settings.Given} {settings : Settings} {s : String}
    (htext : Settings.text? given "AUTH_BYPASS_ROUTES" = some s)
    (h : Settings.ofGiven given = .ok settings) : bypassRoutes s = .ok settings.gate.bypass := by
  rw [ofGiven, htext, Option.getD_some] at h
  split at h
  · exact nomatch h
  · next routes hroutes =>
    split at h
    · exact nomatch h
    · obtain rfl := Except.ok.inj h
      exact hroutes

/-- Settings with a text that is refused are refused for the same reason. -/
lemma Settings.ofGiven_of_error {given : Settings.Given} {s : String} {cause : AuthError}
    (htext : Settings.text? given "AUTH_BYPASS_ROUTES" = some s)
    (h : bypassRoutes s = .error cause) :
    Settings.ofGiven given = .error (.bypassRoutes cause) := by
  rw [ofGiven, htext, Option.getD_some, h]

/-- A list of routes means the routes that it lists, in their order.  A text is read as routes
exactly when it lists them, and settings take over what is read, or are refused with it.  With no
gateway in front, the requests that pass without a token are then those whose method and path are in
the list as they stand.  One item that is neither blank nor a route spoils the text as a whole: it
is refused for the first such item, and for nothing else. -/
theorem routes_listed_exactly (s : String) :
    (∀ routes, bypassRoutes s = .ok routes ↔
      (∀ route ∈ routes, route.Listable) ∧ ListsRoutes s.toList routes) ∧
    (∀ given, Settings.text? given "AUTH_BYPASS_ROUTES" = some s →
      (∀ settings, Settings.ofGiven given = .ok settings →
        bypassRoutes s = .ok settings.gate.bypass) ∧
      ∀ cause, bypassRoutes s = .error cause →
        Settings.ofGiven given = .error (.bypassRoutes cause)) ∧
    (∀ (config : GateConfig) routes, bypassRoutes s = .ok config.bypass →
      (∀ route ∈ routes, route.Listable) → ListsRoutes s.toList routes →
      config.gatewayMode = false → ∀ method path,
        config.isBypassed method path = true ↔ ⟨method, path⟩ ∈ routes) ∧
    ∀ items, Divided isRouteMark s.toList items →
      ((∃ item ∈ items, FlawedItem item) → ∃ before item after,
        items = before ++ item :: after ∧ (∀ i ∈ before, ¬FlawedItem i) ∧ FlawedItem item ∧
          bypassRoutes s = .error (.invalidBypassRoute (String.ofList (trim item)))) ∧
      ((∀ item ∈ items, ¬FlawedItem item) → ∃ routes, bypassRoutes s = .ok routes) := by
  refine ⟨fun _ => bypassRoutes_eq_ok_iff, fun given htext =>
    ⟨fun _ => Settings.bypass_of_ofGiven htext, fun _ => Settings.ofGiven_of_error htext⟩, ?passes,
    fun items hitems => ⟨?flawed, ?sound⟩⟩
  case passes =>
    intro config routes hread hlistable hlists hgateway method path
    have hroutes : bypassRoutes s = .ok routes := bypassRoutes_eq_ok_iff.2 ⟨hlistable, hlists⟩
    obtain rfl : config.bypass = routes := Except.ok.inj (hread.symm.trans hroutes)
    exact GateConfig.isBypassed_iff hgateway method path
  case flawed =>
    rw [bypassRoutes_of_divided hitems]
    exact readItems_of_flawed
  case sound =>
    rw [bypassRoutes_of_divided hitems]
    exact exists_routes_of_no_flaw

/-- Routes with methods in small letters, a tab, a no-break space and an empty item are read as they
are meant; a path without its slash is refused. -/
theorem routes_listed_exactly_untidy :
    let given := [("AUTH_BYPASS_ROUTES", Utf8.encode " post /users,;\tGet\u00A0/me ")]
    let users : BypassRoute := ⟨.post, "/users"⟩
    let me : BypassRoute := ⟨.get, "/me"⟩
    users.Listable ∧ me.Listable ∧
      ListsRoutes " post /users,;\tGet\u00A0/me ".toList [users, me] ∧
      bypassRoutes " post /users,;\tGet\u00A0/me " = .ok [users, me] ∧
      (∃ settings, Settings.ofGiven given = .ok settings ∧ settings.gate.gatewayMode = false ∧
        settings.gate.isBypassed .get "/me" = true ∧
        ¬settings.gate.isBypassed .get "/Me" = true) ∧
      FlawedItem " get me".toList ∧
      bypassRoutes " get me" = .error (.invalidBypassRoute "get me") := by
  intro given users me
  have husers : users.Listable :=
    ⟨by simp [users, Method.post], by simp [users], by simp [users, isBlank, isRouteMark]⟩
  have hme : me.Listable :=
    ⟨by simp [me, Method.get], by simp [me], by simp [me, isBlank, isRouteMark]⟩
  have hlistable : ∀ route ∈ [users, me], route.Listable :=
    List.forall_mem_cons.2 ⟨husers, List.forall_mem_singleton.2 hme⟩
  have hpost : users.Spelled "post /users".toList :=
    ⟨"post".toList, " ".toList, by decide, by decide, List.cons_ne_nil _ _, by simp [isBlank]⟩
  have hget : me.Spelled "Get\u00A0/me".toList :=
    ⟨"Get".toList, "\u00A0".toList, by decide, by decide, List.cons_ne_nil _ _, by simp [isBlank]⟩
  have hfirst : ItemRoutes (" ".toList ++ "post /users".toList ++ "".toList) [users] :=
    .route (by simp [isBlank]) hpost (by simp)
  have hlast : ItemRoutes ("\t".toList ++ "Get\u00A0/me".toList ++ " ".toList) [me] :=
    .route (by simp [isBlank]) hget (by simp [isBlank])
  have hempty : ItemRoutes "".toList [] := .blank (by simp)
  have hlists : ListsRoutes " post /users,;\tGet\u00A0/me ".toList [users, me] :=
    @ListsRoutes.next _ _ ',' _ _ hfirst rfl
      (@ListsRoutes.next _ _ ';' _ _ hempty rfl (.item hlast))
  obtain ⟨hread, htaken, hpasses, -⟩ := routes_listed_exactly " post /users,;\tGet\u00A0/me "
  obtain ⟨settings, hsettings, hgateway⟩ : ∃ settings,
      Settings.ofGiven [("AUTH_BYPASS_ROUTES", Utf8.encode " post /users,;\tGet\u00A0/me ")] =
        .ok settings ∧ settings.gate.gatewayMode = false := ⟨_, rfl, rfl⟩
  have htext : Settings.text? given "AUTH_BYPASS_ROUTES" =
      some " post /users,;\tGet\u00A0/me " := by
    simp [given, Settings.text?]
  have hbypassed := hpasses settings.gate _ ((htaken given htext).1 settings hsettings) hlistable
    hlists hgateway
  have hflawed : FlawedItem " get me".toList :=
    ⟨by decide, .inr ⟨"get".toList, "me".toList, by decide, .inl (by decide)⟩⟩
  have hitems : Divided isRouteMark " get me".toList [" get me".toList] :=
    .last (by simp [isRouteMark])
  obtain ⟨before, item, after, hsplit, -, -, herror⟩ :=
    ((routes_listed_exactly " get me").2.2.2 _ hitems).1 ⟨_, List.mem_singleton_self _, hflawed⟩
  have hitem : item ∈ [" get me".toList] := hsplit ▸ List.mem_append_right _ List.mem_cons_self
  obtain rfl := List.mem_singleton.1 hitem
  refine ⟨husers, hme, hlists, (hread [users, me]).2 ⟨hlistable, hlists⟩,
    ⟨settings, hsettings, hgateway, (hbypassed .get "/me").2 ?_, fun h => ?_⟩, hflawed, herror⟩
  · exact List.mem_cons_of_mem _ List.mem_cons_self
  · have hmem := (hbypassed .get "/Me").1 h
    exact absurd hmem (by decide)

end Gatehouse
