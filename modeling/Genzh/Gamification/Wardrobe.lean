/-
What somebody wears they own, and it is of the type of the slot it is worn in: as long as no edit changes the type of an
item that is worn, or that an equip has checked and not committed yet. The edit looks at neither.
-/
import Genzh.Gamification.Deletion

namespace Genzh.Gamification

open Genzh.Lib Genzh.Domain Genzh.Infrastructure

/-- What somebody wears in a slot. -/
def EconomyDb.wears (s : EconomyDb) (u : UserId) (slot : ItemType) : Option StoreItemId :=
  (s.userEquippedItems.find u).bind fun e => e.slots slot

def EconomyDb.typeOf (s : EconomyDb) (x : StoreItemId) : Option ItemType := (s.storeItems.find x).map (·.itemType)

/-- Every occupied slot holds an item that its owner owns, and of its type. -/
def Fitted (s : EconomyDb) : Prop := ∀ u slot x, s.wears u slot = some x → s.owns u x = true ∧ s.typeOf x = some slot

/-! ## The condition -/

/-- The item that a statement reads the type of, to put it on. -/
def Statement.checks : Statement → Option StoreItemId
  | wornType _ x => some x
  | _ => none

/-- The items that an open transaction has checked. -/
def checking (c : EconomyCall) : List StoreItemId := if c.txn.isSome then c.log.filterMap fun z => z.stmt.checks else []

section Condition

variable (text : Casing) {I : Type} [DecidableEq I]

/-- The edit that a call makes in its turn, where it changes the type of the item. -/
def retyped (i : I) (c : EconomyCall) (σ : Served EconomyDb Key I) : Option StoreItemId :=
  match (economy text).executes i c σ with
  | some ⟨.updateItem x e, _, _⟩ => if (σ.db.typeOf x).any fun t => t ≠ e.itemType then some x else none
  | _ => none

/-- No edit changes the type of an item that is worn, or that an open transaction has checked. -/
def Steady (σ : Requests I) : Event I (Outside I Elsewhere) → Prop
  | .turn i => ∀ x ∈ retyped text i (σ.calls i) σ.store, σ.store.db.wearers x = [] ∧ ∀ k, x ∉ checking (σ.calls k)
  | .outside _ => True

instance [Fintype I] (σ : Requests I) (e : Event I (Outside I Elsewhere)) : Decidable (Steady text σ e) :=
  match e with
  | .turn i => inferInstanceAs (Decidable (∀ x ∈ retyped text i (σ.calls i) σ.store, σ.store.db.wearers x = [] ∧ ∀ k, x ∉ checking (σ.calls k)))
  | .outside _ => .isTrue trivial

end Condition

/-! ## What is committed -/

variable {text : Casing} {s s' : EconomyDb} {log : Log} {ws : List Write} {u : UserId} {slot : ItemType} {x : StoreItemId}

theorem wears_mem_wearers (h : s.wears u slot = some x) : u ∈ s.wearers x := by
  obtain ⟨e, he, hslot⟩ := Option.bind_eq_some_iff.1 h
  exact mem_wearers.2 ⟨e, he, slot, hslot⟩

theorem wears_wearRow {v : UserId} {now : Timestamp} (h : ((Write.wearRow v now).exec s).wears u slot = some x) :
    s.wears u slot = some x := by
  obtain ⟨e, he, hslot⟩ := Option.bind_eq_some_iff.1 h
  have he : (s.userEquippedItems.insert _).find u = some e := he
  rw [Table.find_insert, Option.or_eq_some_iff] at he
  rcases he with he | ⟨-, he⟩
  · exact Option.bind_eq_some_iff.2 ⟨e, he, hslot⟩
  · -- a new row wears nothing
    split at he
    · cases he
      cases hslot
    · cases he

theorem wears_setSlot {v : UserId} {slot' : ItemType} {target : Option StoreItemId} {now : Timestamp}
    (h : ((Write.setSlot v slot' target now).exec s).wears u slot = some x) :
    s.wears u slot = some x ∨ v = u ∧ slot' = slot ∧ target = some x := by
  obtain ⟨e', he', hslot⟩ := Option.bind_eq_some_iff.1 h
  rw [find_setSlot] at he'
  by_cases hv : v = u
  · rw [if_pos hv] at he'
    obtain ⟨e, he, rfl⟩ := Option.map_eq_some_iff.1 he'
    have hslot : Function.update e.slots slot' target slot = some x := hslot
    by_cases hs : slot' = slot
    · subst hs
      rw [Function.update_self] at hslot
      exact .inr ⟨hv, rfl, hslot⟩
    · rw [Function.update_of_ne (Ne.symm hs)] at hslot
      exact .inl (Option.bind_eq_some_iff.2 ⟨e, he, hslot⟩)
  · rw [if_neg hv] at he'
    exact .inl (Option.bind_eq_some_iff.2 ⟨e', he', hslot⟩)

theorem wears_dropItem {y : StoreItemId} (h : ((Write.dropItem y).exec s).wears u slot = some x) :
    s.wears u slot = some x ∧ x ≠ y := by
  obtain ⟨e', he', hslot⟩ := Option.bind_eq_some_iff.1 h
  rw [find_equipped_dropItem] at he'
  obtain ⟨e, he, rfl⟩ := Option.map_eq_some_iff.1 he'
  have hslot : (e.slots slot).filter (fun z => z ≠ y) = some x := hslot
  rw [Option.filter_eq_some_iff] at hslot
  exact ⟨Option.bind_eq_some_iff.2 ⟨e, he, hslot.1⟩, of_decide_eq_true hslot.2⟩

/-- What an equip puts on, it has checked. -/
theorem worn_dress {s₀ : EconomyDb} {v : UserId} (h : ∀ w ∈ ws, Dresses log s₀ v w)
    (hx : ((economy text).apply ws s).wears u slot = some x) :
    s.wears u slot = some x ∨ s₀.owns u x = true ∧ ∃ z ∈ log, z.stmt = .wornType u x ∧ z.view.typeOf x = some slot := by
  induction ws generalizing s with
  | nil => exact .inl hx
  | cons w ws ih =>
    rcases ih (fun w hw => h w (List.mem_cons_of_mem _ hw)) hx with hx | hchecked
    · rw [write_economy] at hx
      cases h w List.mem_cons_self with
      | row now => exact .inl (wears_wearRow hx)
      | off slot' now =>
        rcases wears_setSlot hx with hx | ⟨-, -, hnone⟩
        · exact .inl hx
        · cases hnone
      | on slot' y now z hz hstmt htype howns =>
        rcases wears_setSlot hx with hx | ⟨rfl, rfl, hy⟩
        · exact .inl hx
        · cases hy
          exact .inr ⟨howns, z, hz, hstmt, htype⟩
    · exact .inr hchecked

/-- What somebody wears after a commit, they wore before, and it has not gone; or it has been checked. -/
theorem Commits.worn (h : Commits log s ws) (hx : ((economy text).apply ws s).wears u slot = some x) :
    (s.wears u slot = some x ∧ (x ∈ ((economy text).apply ws s).retired → x ∈ s.retired)) ∨
      (s.owns u x = true ∧ ((economy text).apply ws s).owns u x = true ∧ ((economy text).apply ws s).typeOf x = s.typeOf x ∧
        ∃ z ∈ log, z.stmt = .wornType u x ∧ z.view.typeOf x = some slot) := by
  cases h with
  | dress v ws hdresses =>
    obtain ⟨worn, hworn⟩ := apply_dress text s hdresses
    rcases worn_dress hdresses hx with hx | ⟨howns, hchecked⟩ <;> rw [hworn]
    · exact .inl ⟨hx, id⟩
    · exact .inr ⟨howns, howns, rfl, hchecked⟩
  | dropItem y start rest hlog =>
    obtain ⟨hx, hne⟩ := wears_dropItem hx
    exact .inl ⟨hx, fun hmem => (List.mem_cons.1 hmem).resolve_left hne⟩
  | purchase v i start v' rest hlog hi howns hstock hbalance =>
    obtain ⟨_, _, hpurchase⟩ := apply_purchase text s v i start
    rw [hpurchase] at hx ⊢
    exact .inl ⟨hx, id⟩
  | refer code referrer referee start hne hnew =>
    obtain ⟨_, _, _, hrefer⟩ := apply_refer text s code referrer referee (s.invites referrer + 1) start
    rw [hrefer] at hx ⊢
    exact .inl ⟨hx, id⟩
  | _ => exact .inl ⟨hx, id⟩

/-- The type of an item that is still there changes in an edit only. -/
theorem Commits.types (h : Commits log s ws) (hx : s.typeOf x = some slot) :
    ((economy text).apply ws s).typeOf x = some slot ∨ x ∈ ((economy text).apply ws s).retired ∨
      ∃ e now rest, log = ⟨.updateItem x e, now, s⟩ :: rest ∧ e.itemType ≠ slot := by
  obtain ⟨i, hi, htype⟩ := Option.map_eq_some_iff.1 hx
  cases h with
  | addItem j hnew hprice =>
    left
    refine Option.map_eq_some_iff.2 ⟨i, ?_, htype⟩
    refine (Table.find_insert s.storeItems j x).trans ?_
    rw [hi, Option.some_or]
  | editItem y e now rest hprice hlog =>
    by_cases hy : y = x
    · subst hy
      by_cases hsame : e.itemType = slot
      · left
        refine Option.map_eq_some_iff.2 ⟨e.set now i, find_editItem.trans ?_, hsame⟩
        rw [if_pos rfl, hi]
        rfl
      · exact .inr (.inr ⟨e, now, rest, hlog, hsame⟩)
    · left
      refine Option.map_eq_some_iff.2 ⟨i, find_editItem.trans ?_, htype⟩
      rw [if_neg hy, hi]
  | dropItem y start rest hlog =>
    by_cases hy : y = x
    · exact .inr (.inl (hy ▸ List.mem_cons_self))
    · left
      refine Option.map_eq_some_iff.2 ⟨i, (Table.find_delete s.storeItems y x).trans ?_, htype⟩
      rw [if_neg hy, hi]
  | purchase v j start v' rest hlog hi' howns hstock hbalance =>
    obtain ⟨_, _, hpurchase⟩ := apply_purchase text s v j start
    rw [hpurchase]
    exact .inl hx
  | refer code referrer referee start hne hnew =>
    obtain ⟨_, _, _, hrefer⟩ := apply_refer text s code referrer referee (s.invites referrer + 1) start
    rw [hrefer]
    exact .inl hx
  | dress v ws hdresses =>
    obtain ⟨worn, hworn⟩ := apply_dress text s hdresses
    rw [hworn]
    exact .inl hx
  | _ => exact .inl hx

/-! ## What an open transaction has checked -/

/-- An open transaction leaves the catalog alone, and the items it has checked are of the type it has found, or gone. -/
structure Poised (text : Casing) (c : EconomyCall) (s : EconomyDb) : Prop where
  items : ∀ t, c.txn = some t → ∀ s', ((economy text).apply t.writes s').storeItems = s'.storeItems
  types : ∀ t, c.txn = some t → ∀ z ∈ c.log, ∀ u x slot, z.stmt = .wornType u x → z.view.typeOf x = some slot →
    s.typeOf x = some slot ∨ x ∈ s.retired

/-- Where no transaction is open, none has checked anything. -/
theorem Poised.closed {c : EconomyCall} (h : c.txn = none) : Poised text c s := by
  refine ⟨fun t ht => ?_, fun t ht => ?_⟩ <;> cases h.symm.trans ht

section Turn

variable {I : Type} [DecidableEq I] {i : I} {c c' : EconomyCall} {σ σ' : Served EconomyDb Key I} {request : Request}

/-- Nothing is checked before a transaction. -/
theorem not_checked_before {z : Executed EconomyDb Timestamp Statement} (h : Placed request .before z.stmt) : z.stmt ≠ .wornType u x := by
  intro hz
  rw [hz] at h
  cases h

theorem Poised.turn (h : Poised text c σ.db) (hfollows : Follows (Placed request) c) (hturn : (economy text).Turn i c σ c' σ') :
    Poised text c' σ'.db := by
  cases hturn with
  | stays => exact h
  | begins next hs ht =>
    refine ⟨fun t' ht' => ?_, fun t' ht' z hz u x slot hstmt => absurd hstmt (not_checked_before (hfollows.begins hs z hz))⟩
    cases ht'
    exact fun _ => rfl
  | refusedIn q next t e hs ht => exact ⟨h.items, h.types⟩
  | writes q next t r ws hs ht hallow hx hlogged =>
    have hobeys := hfollows.inside ht
    rw [hs] at hobeys
    refine ⟨fun t' ht' s' => ?_, fun t' ht' z hz u x slot hstmt htype => ?_⟩
    · cases ht'
      rw [Database.apply_append, items_inside hobeys.1 hx, h.items t ht]
    · rcases List.mem_cons.1 hz with rfl | hz
      · -- what it sees of the catalog is what is committed
        left
        rw [← htype]
        unfold EconomyDb.typeOf
        rw [h.items t ht]
      · exact h.types t ht z hz u x slot hstmt htype
  | refused q next e hs ht hx => exact ⟨h.items, h.types⟩
  | executes | breaks | commits | drops => exact .closed rfl

/-- Where a call commits, what it has checked is as it has found it, or gone. -/
theorem Poised.commits (h : Poised text c σ.db) (hfollows : Follows (Placed request) c) (hturn : (economy text).Turn i c σ c' σ')
    (hdb : σ'.db ≠ σ.db) {z : Executed EconomyDb Timestamp Statement} (hz : z ∈ c'.log) (hstmt : z.stmt = .wornType u x)
    (htype : z.view.typeOf x = some slot) : σ.db.typeOf x = some slot ∨ x ∈ σ.db.retired := by
  cases hturn with
  | commits next t hs ht => exact h.types t ht z hz u x slot hstmt htype
  | executes q next r ws hs ht hallow hx hlogged =>
    exfalso
    obtain ⟨ph, hobeys, hph, hlog⟩ := hfollows
    rw [hs] at hobeys
    cases ph with
    | before =>
      rcases List.mem_cons.1 hz with rfl | hz
      · exact not_checked_before hobeys.1 hstmt
      · obtain ⟨ph', hplaced, hbefore⟩ := hlog z hz
        rw [hbefore rfl] at hplaced
        exact not_checked_before hplaced hstmt
    | inside =>
      have := hph.1 rfl
      rw [ht] at this
      cases this
    | after =>
      rw [writes_after hobeys.1 hx] at hdb
      exact hdb rfl
  | _ => exact absurd rfl hdb

theorem mem_retyped {e : ItemEdit} {t : Timestamp} {v : EconomyDb} (h : (economy text).executes i c σ = some ⟨.updateItem x e, t, v⟩)
    (htype : σ.db.typeOf x = some slot) (hne : e.itemType ≠ slot) : x ∈ retyped text i c σ := by
  unfold retyped
  rw [h]
  simp [htype, Ne.symm hne]

end Turn

/-! ## Every run -/

section Run

variable {I : Type} [DecidableEq I] {requests : I → Request} {σ : Requests I}

/-- What everybody wears fits, and what is about to be put on will. -/
structure Dressed (text : Casing) (requests : I → Request) (σ : Requests I) : Prop where
  sound : (discipline text).Sound σ
  follows : ∀ k, Follows (Placed (requests k)) (σ.calls k)
  poised : ∀ k, Poised text (σ.calls k) σ.store.db
  fitted : Fitted σ.store.db

omit [DecidableEq I] in
theorem Dressed.start (hvalid : Valid s) (hfitted : Fitted s) : Dressed text requests (start text s requests) where
  sound := sound_start hvalid
  follows k := .initial (obeys_script (requests k))
  poised _ := .closed rfl
  fitted := hfitted

section Mover

variable {i : I} {c' : EconomyCall} {σ' : Served EconomyDb Key I}

/-- What a turn does to the type of an item: nothing, where it is worn or has been checked. -/
theorem Dressed.types (h : Dressed text requests σ) (hi : Steady text σ (.turn i)) (hturn : (economy text).Turn i (σ.calls i) σ.store c' σ')
    (hx : σ.store.db.typeOf x = some slot) :
    σ'.db.typeOf x = some slot ∨ x ∈ σ'.db.retired ∨ σ.store.db.wearers x = [] ∧ ∀ k, x ∉ checking (σ.calls k) := by
  by_cases hdb : σ'.db = σ.store.db
  · exact .inl (by rw [hdb, hx])
  · rcases hturn.changes hdb with ⟨z, next, hs, ht, hexecutes, hz⟩ | ⟨next, t, hs, ht, -, happly⟩
    · rcases h.sound.committed hturn with hsame | ⟨held, ws, hacts, hws, -, -⟩
      · exact absurd hsame hdb
      · rw [hws]
        rcases hacts.2.types hx with hx | hgone | ⟨e, now, rest, hlog, hne⟩
        · exact .inl hx
        · exact .inr (.inl hgone)
        · rw [hz] at hlog
          cases hlog
          exact .inr (.inr (hi x (mem_retyped hexecutes hx hne)))
    · left
      unfold EconomyDb.typeOf at hx ⊢
      rw [happly, (h.poised i).items t ht, hx]

/-- An item that is gone stays so. -/
theorem Dressed.retired (h : Dressed text requests σ) (hturn : (economy text).Turn i (σ.calls i) σ.store c' σ')
    (hx : x ∈ σ.store.db.retired) : x ∈ σ'.db.retired := by
  rcases h.sound.committed hturn with hsame | ⟨held, ws, hacts, hws, -, -⟩
  · rwa [hsame]
  · rw [hws]
    exact hacts.1.grows.retired x hx

/-- Nobody owns what is gone. -/
theorem not_retired (hvalid : Valid s) (howns : s.owns u x = true) : x ∉ s.retired := by
  intro hgone
  obtain ⟨r, hr⟩ := Table.contains_iff.1 howns
  obtain ⟨hmem, hkey⟩ := Table.find_eq_some.1 hr
  have hstocked := hvalid.stocked r hmem
  rw [show r.itemId = x from congrArg Prod.snd hkey, hvalid.retired x hgone] at hstocked
  cases hstocked

theorem Dressed.fits (h : Dressed text requests σ) (hi : Steady text σ (.turn i)) (hturn : (economy text).Turn i (σ.calls i) σ.store c' σ') :
    Fitted σ'.db := by
  by_cases hdb : σ'.db = σ.store.db
  · rw [hdb]
    exact h.fitted
  · rcases h.sound.committed hturn with hsame | ⟨held, ws, hacts, hws, -, -⟩
    · exact absurd hsame hdb
    · intro u slot x hx
      have hvalid : Valid σ.store.db := h.sound.good
      have hgrows : Grows σ.store.db σ'.db := by
        rw [hws]
        exact hacts.1.grows
      rw [hws] at hx
      rcases hacts.2.worn hx with ⟨hworn, hgone⟩ | ⟨howns, howns', htype', z, hz, hstmt, htype⟩
      · -- worn before: owned then, so still there, and so owned and of its type
        rw [← hws] at hgone
        obtain ⟨howns, htype⟩ := h.fitted u slot x hworn
        have hthere : x ∉ σ'.db.retired := fun hmem => not_retired hvalid howns (hgone hmem)
        refine ⟨(hgrows.owned u x howns).resolve_right hthere, ?_⟩
        rcases h.types hi hturn htype with htype | hmem | ⟨hnobody, -⟩
        · exact htype
        · exact absurd hmem hthere
        · have := wears_mem_wearers hworn
          rw [hnobody] at this
          cases this
      · rw [hws]
        refine ⟨howns', htype'.trans ?_⟩
        exact ((h.poised i).commits (h.follows i) hturn hdb hz hstmt htype).resolve_right (not_retired hvalid howns)

end Mover

theorem Dressed.step (h : Dressed text requests σ) (e : Event I (Outside I Elsewhere)) (he : Steady text σ e) :
    Dressed text requests (step text σ e) := by
  refine ⟨h.sound.step tolerates_elsewhere e, fun k => (h.follows k).step e, fun k => ?_, ?_⟩
  · cases e with
    | turn i =>
      have hturn := (economy text).turn_advance i (σ.calls i) σ.store
      by_cases hki : k = i
      · subst hki
        have hself : (Gamification.step text σ (.turn k)).calls k = ((economy text).advance k (σ.calls k) σ.store).1 := Function.update_self ..
        rw [hself]
        exact (h.poised k).turn (h.follows k) hturn
      · have hother : (Gamification.step text σ (.turn i)).calls k = σ.calls k := Function.update_of_ne hki ..
        rw [hother]
        refine ⟨(h.poised k).items, fun t ht z hz u x slot hstmt htype => ?_⟩
        rcases (h.poised k).types t ht z hz u x slot hstmt htype with hx | hgone
        · rcases h.types he hturn hx with hx | hgone | ⟨-, hunchecked⟩
          · exact .inl hx
          · exact .inr hgone
          · refine absurd ?_ (hunchecked k)
            unfold checking
            rw [ht]
            exact List.mem_filterMap.2 ⟨z, hz, by rw [hstmt]; rfl⟩
        · exact .inr (h.retired hturn hgone)
    | outside a =>
      rcases a with j | a
      · exact ⟨(h.poised k).items, (h.poised k).types⟩
      · cases a <;> exact ⟨(h.poised k).items, (h.poised k).types⟩
  · cases e with
    | turn i => exact h.fits he ((economy text).turn_advance i (σ.calls i) σ.store)
    | outside a =>
      rcases a with j | a
      · exact h.fitted
      · cases a <;> exact h.fitted

end Run

/-- In every run in which no edit changes the type of an item that is worn or about to be put on, every occupied slot holds
an item that its owner owns and of its type; and a request that fails in the end has changed nothing. -/
theorem slots_fit {I : Type} [DecidableEq I] (text : Casing) (requests : I → Request) (s : EconomyDb) (hvalid : Valid s)
    (hfitted : Fitted s) (es : List (Event I (Outside I Elsewhere)))
    (hes : Along (step text) (Steady text) (start text s requests) es) :
    Always (step text) (fun σ => Fitted σ.store.db) (start text s requests) es ∧
    ∀ before i after, es = before ++ .turn i :: after → ((run (step text) (start text s requests) es).calls i).Failed →
      (run (step text) (start text s requests) (before ++ [.turn i])).store.db =
        (run (step text) (start text s requests) before).store.db := by
  have hstart : Dressed text requests (start text s requests) := .start hvalid hfitted
  refine ⟨(always_of_along (fun σ e h he => h.step e he) hstart hes).mono fun σ h => h.fitted, fun before i after hes hfail => ?_⟩
  exact hstart.sound.unchanged tolerates_elsewhere hes hfail

/-! ## An edit of what is worn -/

theorem fitted_shop : Fitted shop := by
  intro u slot x hx
  cases hx

/-- An item that is given away, withdrawn and put on at the same time. -/
theorem slots_fit_of_one :
    let requests : Fin 3 → Request := ![.adminGrantItem ⟨7⟩ ⟨1⟩, .equipCosmetics ⟨1⟩ { badgeItemId := some (some ⟨7⟩) },
      .adminUpdateStoreItem ⟨7⟩ { isActive := some false }]
    let es : List (Event (Fin 3) (Outside (Fin 3) Elsewhere)) :=
      [.turn 0, .turn 0, .turn 1, .turn 1, .turn 1, .turn 2, .turn 2, .turn 1, .turn 1, .turn 1, .turn 1]
    Always (step asWritten) (fun σ => Fitted σ.store.db) (start asWritten shop requests) es ∧
    ∀ before i after, es = before ++ .turn i :: after → ((run (step asWritten) (start asWritten shop requests) es).calls i).Failed →
      (run (step asWritten) (start asWritten shop requests) (before ++ [.turn i])).store.db =
        (run (step asWritten) (start asWritten shop requests) before).store.db :=
  slots_fit asWritten _ shop valid_shop fitted_shop _ (by decide)

/-- A badge that is worn becomes a frame, and is worn as a badge still. -/
theorem worn_item_retyped :
    let requests : Fin 3 → Request := ![.adminGrantItem ⟨7⟩ ⟨1⟩, .equipCosmetics ⟨1⟩ { badgeItemId := some (some ⟨7⟩) },
      .adminUpdateStoreItem ⟨7⟩ { itemType := some "frame" }]
    let es : List (Event (Fin 3) (Outside (Fin 3) Elsewhere)) :=
      List.replicate 2 (.turn 0) ++ List.replicate 7 (.turn 1) ++ List.replicate 2 (.turn 2)
    Valid shop ∧ Fitted shop ∧ ¬ Fitted (run (step asWritten) (start asWritten shop requests) es).store.db := by
  refine ⟨valid_shop, fitted_shop, fun h => ?_⟩
  have hworn := h ⟨1⟩ .badge ⟨7⟩
  revert hworn
  decide

end Genzh.Gamification
