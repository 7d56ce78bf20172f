/-
An item is not deleted while somebody owns it, as long as nobody comes to own it between the count of its owners and its
deletion: the two are statements by themselves, and the ownership rows go with the item. A deletion that finds an owner
is refused, and leaves the item as it is.
-/
import Genzh.Gamification.Phases
import Genzh.Gamification.Stock

namespace Genzh.Gamification

open Genzh.Lib Genzh.Domain Genzh.Infrastructure

abbrev EconomyCall := Call EconomyDb Timestamp Write Key Statement.Answer EconomyError Response

/-! ## The condition -/

/-- The item that a statement makes somebody own. -/
def Statement.gives : Statement → Option StoreItemId
  | insertInventory _ x _ | grantInventory _ x => some x
  | _ => none

/-- The item that a call deletes next, once it has counted its owners. -/
def deleting (c : EconomyCall) : Option StoreItemId :=
  match c.script with
  | .ask (.stmt (.deleteItem x)) _ => some x
  | _ => none

section Condition

variable (text : Casing) {I : Type} [DecidableEq I]

/-- The items that somebody comes to own when a call takes its turn: what a transaction has inserted, when it commits it,
and what a statement inserts by itself. -/
def delivered (i : I) (c : EconomyCall) (σ : Served EconomyDb Key I) : List StoreItemId :=
  match c.script with
  | .ask .commit _ => c.log.filterMap fun z => z.stmt.gives
  | _ => if c.txn.isNone then ((economy text).executes i c σ).toList.filterMap fun z => z.stmt.gives else []

/-- Nobody comes to own an item between the count of its owners and its deletion. -/
def Undisturbed (σ : Requests I) : Event I (Outside I Elsewhere) → Prop
  | .turn i => ∀ x ∈ delivered text i (σ.calls i) σ.store, ∀ k, deleting (σ.calls k) ≠ some x
  | .outside _ => True

instance [Fintype I] (σ : Requests I) (e : Event I (Outside I Elsewhere)) : Decidable (Undisturbed text σ e) :=
  match e with
  | .turn i => inferInstanceAs (Decidable (∀ x ∈ delivered text i (σ.calls i) σ.store, ∀ k, deleting (σ.calls k) ≠ some x))
  | .outside _ => .isTrue trivial

end Condition

/-! ## The states of a deletion -/

/-- What a deletion does, once it has found the item. -/
def countThenDelete (x : StoreItemId) (i : StoreItem) : EconomyM Response :=
  .ask (.stmt (.countOwners x)) fun owners =>
    if 0 < owners then .fail (.badRequest (ownersMessage owners i.name))
    else .ask (.stmt (.deleteItem x)) fun _ => .done .deleted

variable {text : Casing}

theorem script_delete (x : StoreItemId) : (Request.adminDeleteStoreItem x).script text =
    .ask (.stmt (.readItem x)) fun o => Script.found (.notFound "store item") o >>= countThenDelete x := by
  refine congrArg (Script.ask _) (funext fun o => ?_)
  rcases o with _ | i
  · rfl
  · refine congrArg (Script.ask _) (funext fun owners => ?_)
    change (Script.ensure (!decide (0 < owners)) (.badRequest (ownersMessage owners i.name)) >>= fun _ => ask (.deleteItem x)) >>=
      (Script.done ∘ fun _ => Response.deleted) = _
    by_cases howners : 0 < owners
    · rw [if_pos howners, decide_eq_true howners]
      rfl
    · rw [if_neg howners, decide_eq_false howners]
      rfl

/-- How far a deletion can have come. -/
inductive Deletion (text : Casing) (x : StoreItemId) : EconomyCall → Prop
  | asked : Deletion text x (.start ((Request.adminDeleteStoreItem x).script text))
  | unknown (t v) : Deletion text x ⟨.fail (.notFound "store item"), none, [⟨.readItem x, t, v⟩], false⟩
  | found (i t v) (hi : v.storeItems.find x = some i) : Deletion text x ⟨countThenDelete x i, none, [⟨.readItem x, t, v⟩], false⟩
  | refused (i t v t' v') (hi : v.storeItems.find x = some i) (howners : v'.holdings x ≠ []) :
    Deletion text x ⟨.fail (.badRequest (ownersMessage (v'.holdings x).length i.name)), none,
      [⟨.countOwners x, t', v'⟩, ⟨.readItem x, t, v⟩], false⟩
  | clear (t v t' v') (hnobody : v'.holdings x = []) :
    Deletion text x ⟨.ask (.stmt (.deleteItem x)) fun _ => .done .deleted, none, [⟨.countOwners x, t', v'⟩, ⟨.readItem x, t, v⟩], false⟩
  | deleted (t v t' v' t'' v'' wrote) (hnobody : v'.holdings x = []) :
    Deletion text x ⟨.done .deleted, none,
      [⟨.deleteItem x, t'', v''⟩, ⟨.countOwners x, t', v'⟩, ⟨.readItem x, t, v⟩], wrote⟩

section Turn

variable {I : Type} [DecidableEq I] {x : StoreItemId} {i : I} {c c' : EconomyCall} {σ σ' : Served EconomyDb Key I}

/-- A turn of a deletion; and when it is about to delete, nobody owns the item. -/
theorem Deletion.turn (h : Deletion text x c) (hturn : (economy text).Turn i c σ c' σ')
    (hcounted : deleting c = some x → σ.db.holdings x = []) :
    Deletion text x c' ∧ (deleting c' = some x → σ'.db.holdings x = []) := by
  cases h with
  | asked =>
    rcases hturn.single (@script_delete text x) rfl with ⟨rfl, rfl⟩ | ⟨e, hx, -⟩ | ⟨r, ws, hx, rfl, rfl⟩
    · exact ⟨.asked, hcounted⟩
    · cases hx
    · obtain ⟨hi, rfl⟩ : σ.db.storeItems.find x = r ∧ [] = ws := by
        cases hx
        exact ⟨rfl, rfl⟩
      rcases r with _ | i
      · exact ⟨.unknown _ _, by nofun⟩
      · exact ⟨.found i _ _ hi, by nofun⟩
  | unknown t v =>
    obtain ⟨rfl, rfl⟩ := hturn.ended (.inr ⟨_, rfl⟩) rfl
    exact ⟨.unknown t v, by nofun⟩
  | found i t v hi =>
    rcases hturn.single rfl rfl with ⟨rfl, rfl⟩ | ⟨e, hx, -⟩ | ⟨r, ws, hx, rfl, rfl⟩
    · exact ⟨.found i t v hi, by nofun⟩
    · cases hx
    · obtain ⟨hn, rfl⟩ : ((σ.db.holdings x).length : Int) = r ∧ [] = ws := by
        cases hx
        exact ⟨rfl, rfl⟩
      by_cases hnobody : σ.db.holdings x = []
      · have howners : ¬ 0 < r := by
          rw [← hn, hnobody]
          exact Int.lt_irrefl 0
        simp only [if_neg howners]
        exact ⟨.clear t v _ _ hnobody, fun _ => hnobody⟩
      · have howners : 0 < r := by
          rw [← hn]
          exact Int.natCast_pos.2 (List.length_pos_of_ne_nil hnobody)
        simp only [if_pos howners]
        rw [← hn]
        exact ⟨.refused i t v _ _ hi hnobody, by nofun⟩
  | refused i t v t' v' hi howners =>
    obtain ⟨rfl, rfl⟩ := hturn.ended (.inr ⟨_, rfl⟩) rfl
    exact ⟨.refused i t v t' v' hi howners, by nofun⟩
  | clear t v t' v' hnobody =>
    rcases hturn.single rfl rfl with ⟨rfl, rfl⟩ | ⟨e, hx, -⟩ | ⟨r, ws, hx, rfl, rfl⟩
    · exact ⟨.clear t v t' v' hnobody, hcounted⟩
    · cases hx
    · exact ⟨.deleted t v t' v' _ _ _ hnobody, by nofun⟩
  | deleted t v t' v' t'' v'' wrote hnobody =>
    obtain ⟨rfl, rfl⟩ := hturn.ended (.inl ⟨_, rfl⟩) rfl
    exact ⟨.deleted t v t' v' t'' v'' wrote hnobody, by nofun⟩

/-- A deletion that is about to delete is one of that item. -/
theorem deleting_of_request {request : Request} (h : Follows (Placed request) c) (hc : deleting c = some x) :
    request = .adminDeleteStoreItem x := by
  obtain ⟨ph, hobeys, -⟩ := h
  unfold deleting at hc
  split at hc
  · rename_i y next hs
    cases hc
    rw [hs] at hobeys
    exact hobeys.1.2
  · cases hc

/-- Nothing is deleted but by a deletion that is about to. -/
theorem deleting_of_log {request : Request} (hfollows : Follows (Placed request) c)
    (hdeletion : request = .adminDeleteStoreItem x → Deletion text x c) (hturn : (economy text).Turn i c σ c' σ') (hdb : σ'.db ≠ σ.db)
    {t : Timestamp} {v : EconomyDb} {rest : Log} (hlog : c'.log = ⟨.deleteItem x, t, v⟩ :: rest) : deleting c = some x := by
  rcases hturn.changes hdb with ⟨z, next, hs, -, -, hz⟩ | ⟨next, t', hs, -, hsame, -⟩
  · rw [hlog] at hz
    cases hz
    unfold deleting
    rw [hs]
  · -- no deletion comes to a commit
    obtain ⟨ph, -, -, hplaced⟩ := hfollows
    obtain ⟨ph', ⟨-, hrequest⟩, -⟩ := hplaced ⟨.deleteItem x, t, v⟩ (by rw [← hsame, hlog]; exact List.mem_cons_self)
    cases hdeletion hrequest <;> cases hs

/-- Whoever comes to own an item, does so in a turn that delivers it. -/
theorem delivered_of_log (hturn : (economy text).Turn i c σ c' σ') (hdb : σ'.db ≠ σ.db) {z : Executed EconomyDb Timestamp Statement}
    {rest : Log} (hlog : c'.log = z :: rest) (hgives : z.stmt.gives = some x) : x ∈ delivered text i c σ := by
  unfold delivered
  rcases hturn.changes hdb with ⟨y, next, hs, ht, hexecutes, hy⟩ | ⟨next, t', hs, -, hsame, -⟩
  · rw [hlog] at hy
    cases hy
    rw [hs, ht, hexecutes]
    simp [hgives]
  · rw [hs, ← hsame, hlog]
    simp [hgives]

end Turn

/-! ## What is committed -/

variable {s : EconomyDb} {log : Log} {ws : List Write} {x : StoreItemId}

/-- Ownership rows come with a statement that makes somebody own the item. -/
theorem Commits.gives (h : Commits log s ws) (hnobody : s.holdings x = []) (howned : ((economy text).apply ws s).holdings x ≠ []) :
    ∃ z rest, log = z :: rest ∧ z.stmt.gives = some x := by
  have hother : ∀ s' : EconomyDb, s'.userInventory = s.userInventory → s'.holdings x = [] := by
    intro s' hinventory
    unfold EconomyDb.holdings
    rw [hinventory]
    exact hnobody
  have hown : ∀ r : InventoryItem, r.itemId ≠ x → ∀ s' : EconomyDb, s'.userInventory = s.userInventory → ((Write.own r).exec s').holdings x = [] :=
    fun r hr s' hinventory => (holdings_own_of_ne hr).trans (hother s' hinventory)
  cases h with
  | purchase u i start v rest hlog hi howns hstock hbalance =>
    refine ⟨_, rest, hlog, ?_⟩
    by_contra hne
    obtain ⟨_, _, hpurchase⟩ := apply_purchase text s u i start
    rw [hpurchase] at howned
    exact howned (hown _ (fun hx => hne (congrArg some hx)) s rfl)
  | give u y now rest hlog hx howns =>
    refine ⟨_, rest, hlog, ?_⟩
    by_contra hne
    exact howned (hown _ (fun hx => hne (congrArg some hx)) s rfl)
  | dropItem y start rest hlog =>
    refine absurd ?_ howned
    unfold EconomyDb.holdings Table.select at hnobody ⊢
    rw [List.filter_eq_nil_iff] at hnobody ⊢
    exact fun r hr => hnobody r (Table.mem_deleteWhere.1 hr).1
  | refer code referrer referee start hne hnew =>
    obtain ⟨_, _, _, hrefer⟩ := apply_refer text s code referrer referee (s.invites referrer + 1) start
    rw [hrefer] at howned
    exact absurd (hother _ rfl) howned
  | dress u ws hdresses =>
    obtain ⟨worn, hworn⟩ := apply_dress text s hdresses
    rw [hworn] at howned
    exact absurd (hother _ rfl) howned
  | _ => exact absurd (hother _ rfl) howned

/-- What is owned stays owned, but for a deletion. -/
theorem Commits.spares (h : Commits log s ws) (hdrop : ∀ t v rest, log ≠ ⟨.deleteItem x, t, v⟩ :: rest) {r : InventoryItem}
    (hr : r ∈ s.holdings x) : r ∈ ((economy text).apply ws s).holdings x := by
  obtain ⟨hrow, hitem⟩ := Table.mem_select.1 hr
  refine Table.mem_select.2 ⟨?_, hitem⟩
  cases h with
  | purchase u i start v rest hlog hi howns hstock hbalance =>
    obtain ⟨_, _, hpurchase⟩ := apply_purchase text s u i start
    rw [hpurchase]
    exact Table.mem_insert.2 (.inl hrow)
  | give u y now rest hlog hx howns => exact Table.mem_insert.2 (.inl hrow)
  | dropItem y start rest hlog =>
    refine Table.mem_deleteWhere.2 ⟨hrow, decide_eq_false fun hy => hdrop start s rest ?_⟩
    rw [hlog, ← of_decide_eq_true hitem, hy]
  | refer code referrer referee start hne hnew =>
    obtain ⟨_, _, _, hrefer⟩ := apply_refer text s code referrer referee (s.invites referrer + 1) start
    rw [hrefer]
    exact hrow
  | dress u ws hdresses =>
    obtain ⟨worn, hworn⟩ := apply_dress text s hdresses
    rw [hworn]
    exact hrow
  | _ => exact hrow

/-! ## Every run -/

section Run

variable {I : Type} [DecidableEq I] {requests : I → Request} {σ : Requests I}

/-- Every deletion is on its way, and nobody owns what one is about to delete. -/
structure Watched (text : Casing) (requests : I → Request) (σ : Requests I) : Prop where
  sound : (discipline text).Sound σ
  follows : ∀ k, Follows (Placed (requests k)) (σ.calls k)
  stages : ∀ k x, requests k = .adminDeleteStoreItem x → Deletion text x (σ.calls k)
  counted : ∀ k x, deleting (σ.calls k) = some x → σ.store.db.holdings x = []

omit [DecidableEq I] in
theorem Watched.start (hvalid : Valid s) : Watched text requests (start text s requests) where
  sound := sound_start hvalid
  follows k := .initial (obeys_script (requests k))
  stages k x hk := by
    change Deletion text x (.start ((requests k).script text))
    rw [hk]
    exact .asked
  counted k x hk := by
    have hrequest := deleting_of_request (Follows.initial (obeys_script (requests k))) hk
    change deleting (.start ((requests k).script text)) = some x at hk
    rw [hrequest] at hk
    cases hk

/-- What somebody owns, they own after the step, and the item is still there. -/
def Spares (s s' : EconomyDb) : Prop :=
  ∀ x, s.holdings x ≠ [] → s'.storeItems.contains x = true ∧ ∀ r ∈ s.holdings x, r ∈ s'.holdings x

theorem Spares.of_rows {s' : EconomyDb} (hvalid : Valid s') (h : ∀ x, ∀ r ∈ s.holdings x, r ∈ s'.holdings x) : Spares s s' := by
  intro x howned
  obtain ⟨r, hr⟩ := List.exists_mem_of_ne_nil _ howned
  obtain ⟨hrow, hitem⟩ := Table.mem_select.1 (h x r hr)
  refine ⟨?_, h x⟩
  rw [← of_decide_eq_true hitem]
  exact hvalid.stocked r hrow

/-- The turn of a call, where nobody comes to own what another is about to delete. -/
theorem Watched.turn (h : Watched text requests σ) {i : I} (hi : Undisturbed text σ (.turn i)) :
    Watched text requests (step text σ (.turn i)) ∧ Spares σ.store.db (step text σ (.turn i)).store.db := by
  have hsound : (discipline text).Sound (step text σ (.turn i)) := h.sound.step tolerates_elsewhere _
  have hturn := (economy text).turn_advance i (σ.calls i) σ.store
  have hself : (step text σ (.turn i)).calls i = ((economy text).advance i (σ.calls i) σ.store).1 := Function.update_self ..
  have hothers : ∀ k, k ≠ i → (step text σ (.turn i)).calls k = σ.calls k := fun k hk => Function.update_of_ne hk ..
  change ∀ x ∈ delivered text i (σ.calls i) σ.store, ∀ k, deleting (σ.calls k) ≠ some x at hi
  refine ⟨⟨hsound, fun k => (h.follows k).step _, fun k x hk => ?_, fun k x hk => ?_⟩, .of_rows hsound.good fun x r hr => ?_⟩
  · by_cases hki : k = i
    · subst hki
      rw [hself]
      exact ((h.stages k x hk).turn hturn (h.counted k x)).1
    · rw [hothers k hki]
      exact h.stages k x hk
  · by_cases hki : k = i
    · subst hki
      have hrequest := deleting_of_request ((h.follows k).step (.turn k)) hk
      rw [hself] at hk
      exact ((h.stages k x hrequest).turn hturn (h.counted k x)).2 hk
    · rw [hothers k hki] at hk
      have hnobody := h.counted k x hk
      by_contra howned
      have hdb : ((economy text).advance i (σ.calls i) σ.store).2.db ≠ σ.store.db := fun hsame => howned (by
        change ((economy text).advance i (σ.calls i) σ.store).2.db.holdings x = []
        rw [hsame, hnobody])
      rcases h.sound.committed hturn with hsame | ⟨held, ws, hacts, hws, -, -⟩
      · exact hdb hsame
      · change ((economy text).advance i (σ.calls i) σ.store).2.db.holdings x ≠ [] at howned
        rw [hws] at howned
        obtain ⟨z, rest, hlog, hgives⟩ := hacts.2.gives hnobody howned
        exact hi x (delivered_of_log hturn hdb hlog hgives) k hk
  · change r ∈ ((economy text).advance i (σ.calls i) σ.store).2.db.holdings x
    rcases h.sound.committed hturn with hsame | ⟨held, ws, hacts, hws, -, -⟩
    · rwa [hsame]
    · by_cases hdb : ((economy text).advance i (σ.calls i) σ.store).2.db = σ.store.db
      · rwa [hdb]
      · rw [hws]
        refine hacts.2.spares (fun t v rest hlog => ?_) hr
        have hnobody := h.counted i x (deleting_of_log (h.follows i) (h.stages i x) hturn hdb hlog)
        rw [hnobody] at hr
        cases hr

theorem Watched.step (h : Watched text requests σ) (e : Event I (Outside I Elsewhere)) (he : Undisturbed text σ e) :
    Watched text requests (step text σ e) ∧ Spares σ.store.db (step text σ e).store.db := by
  cases e with
  | turn i => exact h.turn he
  | outside a =>
    have hsound := h.sound.step tolerates_elsewhere (.outside a)
    have hholdings : ∀ x, (Gamification.step text σ (.outside a)).store.db.holdings x = σ.store.db.holdings x := by
      intro x
      rcases a with k | a
      · rfl
      · cases a <;> rfl
    refine ⟨⟨hsound, fun k => (h.follows k).step _, h.stages, fun k x hk => ?_⟩, .of_rows hsound.good fun x r hr => ?_⟩
    · rw [hholdings]
      exact h.counted k x hk
    · rw [hholdings]
      exact hr

/-- A deletion that has found an owner is refused, and says how many there are. -/
def Refuses (requests : I → Request) (σ : Requests I) : Prop :=
  ∀ k x, requests k = .adminDeleteStoreItem x → ∀ z ∈ (σ.calls k).log, z.stmt = .countOwners x → z.view.holdings x ≠ [] →
    ∃ i t v, ⟨.readItem x, t, v⟩ ∈ (σ.calls k).log ∧ v.storeItems.find x = some i ∧
      (σ.calls k).script = .fail (.badRequest (ownersMessage (z.view.holdings x).length i.name))

omit [DecidableEq I] in
theorem Watched.refuses (h : Watched text requests σ) : Refuses requests σ := by
  intro k x hk z hz hcount howners
  have hstage := h.stages k x hk
  generalize σ.calls k = c at hstage hz
  cases hstage with
  | asked => cases hz
  | unknown t v | found i t v hi =>
    obtain rfl := List.mem_singleton.1 hz
    cases hcount
  | refused i t v t' v' hi howners' =>
    rcases List.mem_cons.1 hz with rfl | hz
    · exact ⟨i, t, v, List.mem_cons_of_mem _ List.mem_cons_self, hi, rfl⟩
    · obtain rfl := List.mem_singleton.1 hz
      cases hcount
  | clear t v t' v' hnobody =>
    rcases List.mem_cons.1 hz with rfl | hz
    · exact absurd hnobody howners
    · obtain rfl := List.mem_singleton.1 hz
      cases hcount
  | deleted t v t' v' t'' v'' wrote hnobody =>
    rcases List.mem_cons.1 hz with rfl | hz
    · cases hcount
    · rcases List.mem_cons.1 hz with rfl | hz
      · exact absurd hnobody howners
      · obtain rfl := List.mem_singleton.1 hz
        cases hcount

end Run

/-- In every run in which nobody comes to own an item between the count of its owners and its deletion, no item goes that
somebody owns, and none of the ownership rows; a deletion that finds an owner is refused, and whoever is refused has
changed nothing. -/
theorem owned_items_stay {I : Type} [DecidableEq I] (text : Casing) (requests : I → Request) (s : EconomyDb) (hvalid : Valid s)
    (es : List (Event I (Outside I Elsewhere))) (hes : Along (step text) (Undisturbed text) (start text s requests) es) :
    Along (step text) (fun σ e => Spares σ.store.db (step text σ e).store.db) (start text s requests) es ∧
    Always (step text) (Refuses requests) (start text s requests) es ∧
    ∀ before i after, es = before ++ .turn i :: after → ((run (step text) (start text s requests) es).calls i).Failed →
      (run (step text) (start text s requests) (before ++ [.turn i])).store.db =
        (run (step text) (start text s requests) before).store.db := by
  have hstart : Watched text requests (start text s requests) := .start hvalid
  refine ⟨along_of_along (fun σ e h => h.step e) hstart hes,
    (always_of_along (fun σ e h he => (h.step e he).1) hstart hes).mono fun σ h => h.refuses, fun before i after hes hfail => ?_⟩
  exact hstart.sound.unchanged tolerates_elsewhere hes hfail

/-! ## An item that is given away while it is deleted -/

def lantern : StoreItem where
  id := ⟨7⟩
  sku := "lantern"
  name := "Lantern"
  description := ""
  itemType := .badge
  rarity := .common
  pricePoints := 0
  assetUrl := none
  styleConfig := ""
  isActive := true
  isLimited := false
  stockLimit := none
  sortOrder := 0
  createdBy := none
  createdAt := 0
  updatedAt := 0

/-- A catalog of one item, which nobody owns. -/
def shop : EconomyDb := { EconomyDb.empty 0 nobody with storeItems := Table.empty.insert lantern }

theorem valid_shop : Valid shop :=
  ⟨fun _ hx => (List.not_mem_nil hx).elim, fun _ hr => (List.not_mem_nil hr).elim⟩

/-- Given away after the deletion has found the item, and before it counts the owners. -/
theorem owned_items_stay_of_one :
    let requests : Fin 2 → Request := ![.adminGrantItem ⟨7⟩ ⟨1⟩, .adminDeleteStoreItem ⟨7⟩]
    let es : List (Event (Fin 2) (Outside (Fin 2) Elsewhere)) := [.turn 1, .turn 0, .turn 0, .turn 1]
    Along (step asWritten) (fun σ e => Spares σ.store.db (step asWritten σ e).store.db) (start asWritten shop requests) es ∧
    Always (step asWritten) (Refuses requests) (start asWritten shop requests) es ∧
    ∀ before i after, es = before ++ .turn i :: after → ((run (step asWritten) (start asWritten shop requests) es).calls i).Failed →
      (run (step asWritten) (start asWritten shop requests) (before ++ [.turn i])).store.db =
        (run (step asWritten) (start asWritten shop requests) before).store.db :=
  owned_items_stay asWritten _ shop valid_shop _ (by decide)

/-- An item that is owned is not deactivated instead; and one that is given away after the count is deleted nevertheless. -/
theorem owned_item_deleted :
    let requests : Fin 2 → Request := ![.adminGrantItem ⟨7⟩ ⟨1⟩, .adminDeleteStoreItem ⟨7⟩]
    let after (es : List (Event (Fin 2) (Outside (Fin 2) Elsewhere))) := run (step asWritten) (start asWritten shop requests) es
    Valid shop ∧
    (((after [.turn 0, .turn 0, .turn 1, .turn 1]).calls 1).Failed ∧
      (after [.turn 0, .turn 0, .turn 1, .turn 1]).store.db.owns ⟨1⟩ ⟨7⟩ = true ∧
      ((after [.turn 0, .turn 0, .turn 1, .turn 1]).store.db.storeItems.find ⟨7⟩).map (·.isActive) = some true) ∧
    (after [.turn 1, .turn 1, .turn 0, .turn 0]).store.db.owns ⟨1⟩ ⟨7⟩ = true ∧
    (after [.turn 1, .turn 1, .turn 0, .turn 0, .turn 1]).store.db.storeItems.contains ⟨7⟩ = false ∧
    (after [.turn 1, .turn 1, .turn 0, .turn 0, .turn 1]).store.db.owns ⟨1⟩ ⟨7⟩ = false := by
  refine ⟨valid_shop, ⟨⟨_, rfl⟩, by decide, by decide⟩, by decide, by decide, by decide⟩

end Genzh.Gamification
