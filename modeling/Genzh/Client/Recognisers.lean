/-
What the client makes of a message before it sends it, and what the server makes of it: the shortcodes it would draw, the
people it would notify, and whether it carries too much. Both count links by scheme in the text in lower case, the client
by a regular expression and the server pattern by pattern.
-/
import Genzh.Client.Shortcodes
import Genzh.Client.Mentions

namespace Genzh.Client

open Genzh.Lib Genzh.Domain

/-! ## The client -/

def maxMentions : Nat := 10
def maxLinks : Nat := 5

/-- `/https?:\/\//g` -/
def link : Regex UInt16 := .seq (.lit (units "http")) (.seq (.opt (· == unit 's')) (.lit (units "://")))

/-- Links counted by scheme, the way the server counts them. -/
def countLinks (engine : Engine) (content : JsString) : Nat := (link.matchAll 0 (engine.toLowerCase content)).length

/-- Why a draft would be refused, or none if it would not be. -/
def contentProblem (engine : Engine) (content : JsString) : Option String :=
  let mentions := (parseMentions engine content).length
  if maxMentions < mentions then
    some s!"That is {mentions} mentions — at most {maxMentions} people can be named in one message."
  else
    let links := countLinks engine content
    if maxLinks < links then some s!"That is {links} links — at most {maxLinks} fit in one message."
    else none

/-! ## The server -/

/-- `count_links`, with lower case as Unicode has it. -/
def countLinksUnder (toLowercase : String → String) (content : String) : Nat :=
  let lower := (toLowercase content).toList
  countMatches "http://".toList lower + countMatches "https://".toList lower

/-- `check_content`, with lower case as Unicode has it. -/
def checkContentUnder (toLowercase : String → String) (content : String) : Except DomainError Unit :=
  if maxMentionsPerMessage < (Domain.parseMentions content).length then
    .error (.invalid "content" s!"mentions at most {maxMentionsPerMessage} people at a time")
  else if maxLinksPerMessage < countLinksUnder toLowercase content then
    .error (.invalid "content" s!"contains at most {maxLinksPerMessage} links")
  else .ok ()

/-! ## Links -/

section Links

variable {engine : Engine} {toLowercase : String → String} {u r : JsString} {index : Nat}

theorem isPrefixOf_append {α : Type} [BEq α] (v w l : List α) : (v ++ w).isPrefixOf l = (v.isPrefixOf l && w.isPrefixOf (l.drop v.length)) := by
  induction v generalizing l with
  | nil => simp
  | cons a v ih =>
    cases l with
    | nil => rfl
    | cons b l =>
      rw [List.cons_append, List.isPrefixOf_cons_cons, List.isPrefixOf_cons_cons, ih, List.length_cons, List.drop_succ_cons, Bool.and_assoc]

/-- The end of a link, from after `http`. -/
theorem head_link (k : Cursor UInt16) : ((Regex.seq (.opt (· == unit 's')) (.lit (units "://"))).ends k).head? =
    if (units "s://").isPrefixOf k.rest then some (Regex.skip k 4)
    else if (units "://").isPrefixOf k.rest then some (Regex.skip k 3)
    else none := by
  have hends : (Regex.seq (.opt (· == unit 's')) (.lit (units "://"))).ends k =
      ((Regex.step (· == unit 's') k) ++ [k]).flatMap (Regex.lit (units "://")).ends := rfl
  rw [hends, Regex.head_flatMap, List.flatMap_singleton, Regex.ends_lit]
  rcases hk : k.rest with _ | ⟨v, rest⟩
  · rw [Regex.step_nil hk]
    rfl
  · have hrest : (Regex.skip k 1).rest = rest := by
      unfold Regex.skip
      rw [hk]
      rfl
    have hs : (units "s://").isPrefixOf (v :: rest) = (unit 's' == v && (units "://").isPrefixOf rest) := rfl
    rw [Regex.step_cons hk, hs, BEq.comm (a := unit 's')]
    cases hv : v == unit 's' with
    | false =>
      simp only [Bool.false_eq_true, if_false, List.flatMap_nil, List.head?_nil, Option.none_or, Bool.false_and]
      split <;> rfl
    | true =>
      rw [if_pos rfl, List.flatMap_singleton, Regex.ends_lit, hrest, Bool.true_and]
      split
      · rw [Regex.skip_skip]
        rfl
      · simp only [List.head?_nil, Option.none_or]
        split <;> rfl

/-- A link with an s, where there is one, or one without. -/
theorem matchAt_link (index : Nat) (u : JsString) : link.matchAt index u =
    if (units "https://").isPrefixOf u then some ⟨index + 8, u.drop 8, []⟩
    else if (units "http://").isPrefixOf u then some ⟨index + 7, u.drop 7, []⟩
    else none := by
  have hhttps : (units "https://").isPrefixOf u = ((units "http").isPrefixOf u && (units "s://").isPrefixOf (u.drop 4)) :=
    isPrefixOf_append (units "http") (units "s://") u
  have hhttp : (units "http://").isPrefixOf u = ((units "http").isPrefixOf u && (units "://").isPrefixOf (u.drop 4)) :=
    isPrefixOf_append (units "http") (units "://") u
  have hends : link.ends ⟨index, u, []⟩ =
      ((Regex.lit (units "http")).ends ⟨index, u, []⟩).flatMap
        (Regex.ends (.seq (.opt (· == unit 's')) (.lit (units "://")))) := rfl
  unfold Regex.matchAt
  rw [hhttps, hhttp, hends, Regex.ends_lit]
  simp only
  cases (units "http").isPrefixOf u with
  | false => rfl
  | true =>
    have hrest : (Regex.skip (⟨index, u, []⟩ : Cursor UInt16) (units "http").length).rest = u.drop 4 := rfl
    rw [if_pos rfl, List.flatMap_singleton, head_link, hrest, Regex.skip_skip, Regex.skip_skip]
    rfl

/-- No link begins within a link. -/
theorem starts_after {w : JsString} {b : UInt16} {pat : JsString} (h : b ∉ w) : starts (b :: pat) (w ++ u) = starts (b :: pat) u := by
  have hne : ∀ v ∈ w, v ≠ b := fun v hv heq => h (heq ▸ hv)
  exact starts_foreign (not_not.2 rfl) hne

theorem starts_https (r : JsString) : starts (units "http://") (units "https://" ++ r) + starts (units "https://") (units "https://" ++ r) =
    1 + (starts (units "http://") r + starts (units "https://") r) := by
  have hbreak : unit 'h' ∉ units "ttps://" := by decide
  have hhttp : starts (units "http://") (units "https://" ++ r) = starts (units "http://") r :=
    (starts_cons (b := unit 'h') (u := units "ttps://" ++ r)).trans ((Nat.zero_add _).trans (starts_after hbreak))
  have hhttps : starts (units "https://") (units "https://" ++ r) = 1 + starts (units "https://") r :=
    (starts_cons (b := unit 'h') (u := units "ttps://" ++ r)).trans (congrArg (1 + ·) (starts_after hbreak))
  omega

theorem starts_http (r : JsString) : starts (units "http://") (units "http://" ++ r) + starts (units "https://") (units "http://" ++ r) =
    1 + (starts (units "http://") r + starts (units "https://") r) := by
  have hbreak : unit 'h' ∉ units "ttp://" := by decide
  have hhttp : starts (units "http://") (units "http://" ++ r) = 1 + starts (units "http://") r :=
    (starts_cons (b := unit 'h') (u := units "ttp://" ++ r)).trans (congrArg (1 + ·) (starts_after hbreak))
  have hhttps : starts (units "https://") (units "http://" ++ r) = starts (units "https://") r :=
    (starts_cons (b := unit 'h') (u := units "ttp://" ++ r)).trans ((Nat.zero_add _).trans (starts_after hbreak))
  omega

/-- The matches are the places where either pattern stands. -/
theorem length_matchAll_link (u : JsString) (index : Nat) :
    (link.matchAll index u).length = starts (units "http://") u + starts (units "https://") u := by
  induction hn : u.length using Nat.strong_induction_on generalizing u index with
  | _ n ih =>
    subst hn
    rcases u with _ | ⟨v, u⟩
    · rw [Regex.matchAll_nil, matchAt_link]
      rfl
    · have hmatch := matchAt_link index (v :: u)
      by_cases hhttps : (units "https://").isPrefixOf (v :: u) = true
      · rw [if_pos hhttps] at hmatch
        obtain ⟨r, hr⟩ := List.isPrefixOf_iff_prefix.1 hhttps
        have hdrop : (v :: u).drop 8 = r := by rw [← hr]; rfl
        have hlength : (v :: u).length = 8 + r.length := by rw [← hr, List.length_append]; rfl
        rw [hdrop] at hmatch
        rw [Regex.matchAll_of_some hmatch (by simp only [List.length_cons] at hlength ⊢; omega), List.length_cons,
          ih r.length (by omega) r _ rfl, ← hr, starts_https]
        omega
      · rw [if_neg hhttps] at hmatch
        by_cases hhttp : (units "http://").isPrefixOf (v :: u) = true
        · rw [if_pos hhttp] at hmatch
          obtain ⟨r, hr⟩ := List.isPrefixOf_iff_prefix.1 hhttp
          have hdrop : (v :: u).drop 7 = r := by rw [← hr]; rfl
          have hlength : (v :: u).length = 7 + r.length := by rw [← hr, List.length_append]; rfl
          rw [hdrop] at hmatch
          rw [Regex.matchAll_of_some hmatch (by simp only [List.length_cons] at hlength ⊢; omega), List.length_cons,
            ih r.length (by omega) r _ rfl, ← hr, starts_http]
          omega
        · rw [if_neg hhttp] at hmatch
          rw [Regex.matchAll_of_none hmatch, ih u.length (Nat.lt_succ_self _) u _ rfl, starts_cons, starts_cons, if_neg hhttp,
            if_neg hhttps, Nat.zero_add, Nat.zero_add]

/-! ## Lower case -/

/-- The characters of the patterns. -/
def linkChars : List Char := "htps:/".toList

theorem linkChar_ascii {d : Char} (h : d ∈ linkChars) : isAscii d = true :=
  List.all_eq_true.1 (by decide : linkChars.all isAscii = true) d h

/-- Neither the i of a dotted capital I nor the k of the Kelvin sign is in a pattern, and nothing that is not ASCII. -/
theorem not_linkChar {d : Char} (h : d.toNat < 128 → d = 'i' ∨ d = 'k') : d ∉ linkChars := by
  intro hmem
  rcases h (of_decide_eq_true (linkChar_ascii hmem)) with rfl | rfl
  · exact absurd hmem (by decide)
  · exact absurd hmem (by decide)

theorem recodes_client (hengine : engine.Conforms) (l : List Char) :
    Recodes asciiUnit (fun v => v ∉ linkChars.map unit) (asciiLowercase l) (engine.toLowerCase (utf16 l)) := by
  obtain ⟨lowered, hlowered, heq⟩ := hengine.lower l
  rw [heq]
  refine hlowered.recodes _ _ encode (fun c hc => ?_) (fun c hc => ?_) encode_ne_nil fun d hd v hv hmem => ?_
  · rcases encode_cases c with ⟨-, he⟩ | ⟨hge, -⟩
    · exact ⟨unit c, if_pos (decide_eq_true hc), he⟩
    · omega
  · exact if_neg fun h => absurd (of_decide_eq_true h) (Nat.not_lt.2 hc)
  · obtain ⟨e, he, rfl⟩ := List.mem_map.1 hmem
    have helt : e.toNat < 128 := of_decide_eq_true (linkChar_ascii he)
    have hunit : (unit e).toNat = e.toNat := toNat_unit (by omega)
    rcases encode_cases d with ⟨hlt, henc⟩ | ⟨-, high, low, henc, hhigh, hlow⟩ <;> rw [henc] at hv
    · have hed : e = d := by
        refine char_eq ?_
        rw [← hunit, ← toNat_unit hlt, List.mem_singleton.1 hv]
      exact not_linkChar hd (hed ▸ he)
    · rcases List.mem_pair.1 hv with heq | heq
      · rw [heq] at hunit
        omega
      · rw [heq] at hunit
        omega

theorem recodes_server (hserver : Lowers toLowercase) (content : String) :
    Recodes (fun c => if isAscii c then some c else none) (· ∉ linkChars) (asciiLowercase content.toList) (toLowercase content).toList := by
  have h := (hserver content).recodes (fun c => if isAscii c then some c else none) (· ∉ linkChars) (fun c => [c])
    (fun c hc => ⟨c, if_pos (decide_eq_true hc), rfl⟩)
    (fun c hc => if_neg fun h => absurd (of_decide_eq_true h) (Nat.not_lt.2 hc)) (fun c => List.cons_ne_nil _ _)
    fun d hd v hv => by rw [List.mem_singleton.1 hv]; exact not_linkChar hd
  rwa [List.flatMap_singleton'] at h

theorem shared_units (pat : String) (h : (pat.toList.all fun c => c ∈ linkChars) = true) :
    Shared asciiUnit (fun v => v ∉ linkChars.map unit) pat.toList (units pat) := by
  refine ⟨?_, ?_⟩
  · unfold units
    rw [List.forall₂_map_right_iff, List.forall₂_same]
    intro c hc
    exact if_pos (linkChar_ascii (of_decide_eq_true (List.all_eq_true.1 h c hc)))
  · rintro v hv hnot
    obtain ⟨c, hc, rfl⟩ := List.mem_map.1 hv
    exact hnot (List.mem_map_of_mem (of_decide_eq_true (List.all_eq_true.1 h c hc)))

theorem shared_chars (pat : List Char) (h : (pat.all fun c => c ∈ linkChars) = true) :
    Shared (fun c => if isAscii c then some c else none) (· ∉ linkChars) pat pat := by
  refine ⟨?_, fun c hc hnot => hnot (of_decide_eq_true (List.all_eq_true.1 h c hc))⟩
  rw [List.forall₂_same]
  intro c hc
  exact if_pos (linkChar_ascii (of_decide_eq_true (List.all_eq_true.1 h c hc)))

/-- Either side counts the links of the text with its ASCII letters in lower case. -/
theorem countLinks_agree (hengine : engine.Conforms) (content : String) :
    countLinks engine (utf16 content.toList) = Domain.countLinks content := by
  have h := recodes_client hengine content.toList
  have hhttp := h.starts asciiUnit_faithful (shared_units "http://" (by decide))
  have hhttps := h.starts asciiUnit_faithful (shared_units "https://" (by decide))
  unfold countLinks
  rw [length_matchAll_link]
  exact congrArg₂ (· + ·) hhttp hhttps

theorem countLinksUnder_eq (hserver : Lowers toLowercase) (content : String) :
    countLinksUnder toLowercase content = Domain.countLinks content := by
  have hcode : Faithful fun c : Char => if isAscii c then some c else none := by
    rintro a c b ha hc
    simp only at ha hc
    split at ha
    · split at hc
      · cases ha
        cases hc
        rfl
      · cases hc
    · cases ha
  have h := recodes_server hserver content
  have hhttp := h.starts hcode (shared_chars "http://".toList (by decide))
  have hhttps := h.starts hcode (shared_chars "https://".toList (by decide))
  exact congrArg₂ (· + ·) hhttp hhttps

end Links

/-! ## Client and server -/

section Agree

variable {engine : Engine} {toLowercase : String → String}

/-- The check the services make looks at ASCII letters only, and comes to the same. -/
theorem checkContentUnder_eq (hserver : Lowers toLowercase) (content : String) :
    checkContentUnder toLowercase content = checkContent content := by
  unfold checkContentUnder checkContent
  rw [countLinksUnder_eq hserver]

theorem contentProblem_agree (hengine : engine.Conforms) (hserver : Lowers toLowercase) (content : String) :
    contentProblem engine (utf16 content.toList) = none ↔ checkContentUnder toLowercase content = .ok () := by
  have hmentions : (parseMentions engine (utf16 content.toList)).length = (Domain.parseMentions content).length := by
    rw [(parseMentions_agree hengine content).length_eq, List.length_map]
  unfold contentProblem checkContentUnder
  rw [hmentions, countLinks_agree hengine, countLinksUnder_eq hserver]
  simp only
  -- the limits are the same on either side
  change _ ↔ (if maxMentions < _ then _ else if maxLinks < _ then _ else _) = _
  split
  · exact iff_of_false (fun h => (by cases h)) (fun h => (by cases h))
  · split
    · exact iff_of_false (fun h => (by cases h)) (fun h => (by cases h))
    · exact iff_of_true rfl rfl

/-- The client's recognisers and the server's agree on every text: on the shortcodes in their order, on the set of
mentions, and on what may be sent. -/
theorem recognisers_agree (hengine : engine.Conforms) (hserver : Lowers toLowercase) (content : String) :
    parseShortcodes engine (utf16 content.toList) =
      (Messaging.parseShortcodes toLowercase content).map (fun name => utf16 name.toList) ∧
    (parseMentions engine (utf16 content.toList)).Perm ((Domain.parseMentions content).map fun m => utf16 (nameOf m).toList) ∧
    (contentProblem engine (utf16 content.toList) = none ↔ checkContentUnder toLowercase content = .ok ()) :=
  ⟨parseShortcodes_agree hengine hserver content, parseMentions_agree hengine content, contentProblem_agree hengine hserver content⟩

end Agree

/-! ### A message -/

/-- Lower case, for ASCII, the dotted capital I and the Kelvin sign. -/
def lowerChar (c : Char) : List Char :=
  if c.toNat = 0x130 then ['i', Char.ofNat 0x307] else if c.toNat = 0x212A then ['k'] else [c.toLower]

def lowerUnit (v : UInt16) : JsString :=
  if v.toNat = 0x130 then [unit 'i', 0x307]
  else if v.toNat = 0x212A then [unit 'k']
  else if 65 ≤ v.toNat ∧ v.toNat ≤ 90 then [v + 32]
  else [v]

/-- These tables, on strings. -/
def tables : Engine where
  toLowerCase u := u.flatMap lowerUnit
  toUppercase v := [if 97 ≤ v.toNat ∧ v.toNat ≤ 122 then v - 32 else v]

def tablesLowercase (s : String) : String := String.ofList (s.toList.flatMap lowerChar)

theorem lowerCase_lowerChar (c : Char) : LowerCase c (lowerChar c) := by
  unfold lowerChar
  split
  · refine ⟨List.cons_ne_nil _ _, fun hlt => absurd hlt (by omega), fun _ d hd hlt => ?_⟩
    rcases List.mem_pair.1 hd with rfl | rfl
    · exact .inl rfl
    · exact absurd hlt (by decide)
  · split
    · refine ⟨List.cons_ne_nil _ _, fun hlt => absurd hlt (by omega), fun _ d hd _ => .inr (List.mem_singleton.1 hd)⟩
    · refine ⟨List.cons_ne_nil _ _, fun _ => rfl, fun hge d hd hlt => ?_⟩
      rw [List.mem_singleton.1 hd, toLower_other hge] at hlt
      omega

theorem tablesLowercase_lowers : Lowers tablesLowercase := by
  intro s
  refine ⟨s.toList.map lowerChar, List.forall₂_map_right_iff.2 (List.forall₂_same.2 fun c _ => lowerCase_lowerChar c), ?_⟩
  unfold tablesLowercase
  rw [String.toList_ofList, List.flatMap_def]

theorem lowerUnit_encode (c : Char) : (encode c).flatMap lowerUnit = utf16 (lowerChar c) := by
  rcases encode_cases c with ⟨hlt, he⟩ | ⟨hge, high, low, he, hhigh, hlow⟩ <;> rw [he]
  · rw [List.flatMap_singleton]
    by_cases hascii : c.toNat < 128
    · exact ascii_cases (P := fun c => lowerUnit (unit c) = utf16 (lowerChar c)) (by decide +kernel) hascii
    · unfold lowerUnit lowerChar
      rw [toNat_unit hlt]
      split
      · rfl
      · split
        · rfl
        · rw [if_neg (by omega), toLower_other (by omega), utf16_cons, he]
          rfl
  · have hlt := toNat_lt c
    have hsame : ∀ v : UInt16, 0xD800 ≤ v.toNat → lowerUnit v = [v] := by
      intro v hv
      unfold lowerUnit
      rw [if_neg (by omega), if_neg (by omega), if_neg (by omega)]
    unfold lowerChar
    rw [if_neg (by omega), if_neg (by omega), toLower_other (by omega), utf16_cons, he, List.flatMap_cons,
      List.flatMap_singleton, hsame high (by omega), hsame low (by omega)]
    rfl

theorem tables_conform : tables.Conforms where
  lower l := by
    refine ⟨l.flatMap lowerChar, ⟨l.map lowerChar, List.forall₂_map_right_iff.2
      (List.forall₂_same.2 fun c _ => lowerCase_lowerChar c), by rw [List.flatMap_def]⟩, ?_⟩
    unfold tables utf16
    simp only [List.flatMap_assoc]
    exact List.flatMap_congr fun c _ => lowerUnit_encode c
  upper c hc := ascii_cases (P := fun c => tables.toUppercase (unit c) = [unit c.toUpper]) (by decide +kernel) (of_decide_eq_true hc)

/-- A mention, a shortcode, a dotted capital I and a link. -/
theorem message_agrees :
    parseShortcodes tables (utf16 "@Ana :Blob: \u0130 https://a.b".toList) =
      (Messaging.parseShortcodes tablesLowercase "@Ana :Blob: \u0130 https://a.b").map (fun name => utf16 name.toList) ∧
    (parseMentions tables (utf16 "@Ana :Blob: \u0130 https://a.b".toList)).Perm
      ((Domain.parseMentions "@Ana :Blob: \u0130 https://a.b").map fun m => utf16 (nameOf m).toList) ∧
    (contentProblem tables (utf16 "@Ana :Blob: \u0130 https://a.b".toList) = none ↔
      checkContentUnder tablesLowercase "@Ana :Blob: \u0130 https://a.b" = .ok ()) :=
  recognisers_agree tables_conform tablesLowercase_lowers _

end Genzh.Client
