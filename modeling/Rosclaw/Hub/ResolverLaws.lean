/-
Which version a reference resolves to (`hub/resolver.py`).

What a reference leaves of the scan does not depend on its order (`selected_eq`), and the first
candidate of maximal key is chosen; so the order decides exactly among those.

* **`resolver_laws`** — the promises of the resolver hold exactly if the candidates of maximal key
  have one version, no semantic version competes with another for the latest, and no version has
  the name of the channel that is asked for.
-/
import Mathlib.Data.List.DropRight
import Mathlib.Data.List.TakeWhile
import Rosclaw.Hub.Resolver

namespace Rosclaw.Hub

open List Option

/-! ## The promises and their condition -/

section

variable {V : Type*} [LinearOrder V] (precedence : PyStr → Option V) (ref : AssetRef)
  (scan : List Candidate)

/-- What the operator says of two precedences. -/
def Meaning (op : PyStr) (v t : V) : Prop :=
  op = "==" ∧ v = t ∨ op = "!=" ∧ v ≠ t ∨ op = ">" ∧ t < v ∨ op = ">=" ∧ t ≤ v ∨
    op = "<" ∧ v < t ∨ op = "<=" ∧ v ≤ t

/-- The version is the one of the specifier, or fulfils each of its comparisons. -/
def Satisfies (version spec : PyStr) : Prop :=
  version = spec ∨ (∃ v, precedence version = some v ∧ precedence spec = some v) ∨
    parts spec ≠ [] ∧ ∀ part ∈ parts spec, ∃ m v t, splitOp part = some m ∧
      precedence version = some v ∧ precedence m.2.strip = some t ∧ Meaning m.1 v t

def IsChannel : Prop := (versionSpec ref).lower ∈ channels

/-- A candidate for the latest: of the channel, if the reference has one. -/
def Offered (c : Candidate) : Prop :=
  c ∈ matchingCandidates ref scan ∧
    (versionSpec ref = "" ∨ (channelFromManifest c).lower = (versionSpec ref).lower)

structure Laws : Prop where
  order : ∀ scan' : List Candidate, scan'.Perm scan →
    (resolve precedence ref scan').map (·.ref) = (resolve precedence ref scan).map (·.ref)
  exact : versionSpec ref ≠ "" → ∀ c ∈ matchingCandidates ref scan, c.text = versionSpec ref →
    ∃ r, resolve precedence ref scan = .ok r ∧ r.ref.version.getD "" = versionSpec ref
  satisfied : versionSpec ref ≠ "" → ∀ r, resolve precedence ref scan = .ok r →
    ∃ c ∈ matchingCandidates ref scan, c.ref.version = r.ref.version ∧
      (IsChannel ref → (channelFromManifest c).lower = (versionSpec ref).lower) ∧
      (¬ IsChannel ref → Satisfies precedence c.text (versionSpec ref))
  latest : versionSpec ref = "" ∨ IsChannel ref → ∀ r, resolve precedence ref scan = .ok r →
    ∀ c, Offered ref scan c → ∀ w, precedence c.text = some w →
      ∃ v, precedence (r.ref.version.getD "") = some v ∧ w ≤ v

/-- No candidate that the reference leaves has a higher key. -/
def Highest (c : Candidate) : Prop :=
  c ∈ (selected precedence ref scan).1 ∧ ∀ d ∈ (selected precedence ref scan).1,
    versionKey precedence d.text ≤ versionKey precedence c.text

structure Clear : Prop where
  tie : ∀ c d, Highest precedence ref scan c → Highest precedence ref scan d →
    c.ref.version = d.ref.version
  mixed : versionSpec ref = "" ∨ IsChannel ref → ∀ c d, Offered ref scan c → Offered ref scan d →
    (precedence c.text).isSome → (precedence d.text).isSome
  named : IsChannel ref → ∀ c ∈ matchingCandidates ref scan, c.text = versionSpec ref →
    ∃ d, Highest precedence ref scan d ∧ d.text = versionSpec ref

end

/-! ## Specifiers -/

variable {V : Type*} [LinearOrder V] {precedence : PyStr → Option V} {ref : AssetRef}
  {scan : List Candidate}

theorem strip_strip (s : PyStr) : s.strip.strip = s.strip := by
  have hcodes : ∀ t : PyStr, t.strip.codes = (t.codes.dropWhile PyStr.isSpace).rdropWhile
      PyStr.isSpace := fun _ => rfl
  have hfirst : s.strip.codes.dropWhile PyStr.isSpace = s.strip.codes := by
    rw [hcodes, dropWhile_eq_self_iff]
    intro hpos
    obtain ⟨rest, hrest⟩ := rdropWhile_prefix PyStr.isSpace (s.codes.dropWhile PyStr.isSpace)
    have hlong : 0 < (s.codes.dropWhile PyStr.isSpace).length := by
      rw [← hrest, length_append]
      omega
    have hhead := dropWhile_get_zero_not PyStr.isSpace s.codes hlong
    simp only [get_eq_getElem] at hhead
    rwa [getElem_of_eq hrest.symm hlong, getElem_append_left hpos] at hhead
  have hall : s.strip.strip.codes = s.strip.codes := by
    rw [hcodes s.strip, hfirst, hcodes s, rdropWhile_idempotent]
  exact congrArg PyStr.mk hall

variable {c : Candidate} {part s spec t version : PyStr}

theorem meaning_of_passes (h : passes precedence version part = true) :
    ∃ m v t, splitOp part = some m ∧ precedence version = some v ∧
      precedence m.2.strip = some t ∧ Meaning m.1 v t := by
  rw [passes, getD_eq_iff] at h
  rcases h with h | ⟨-, h⟩
  · obtain ⟨m, hm, h⟩ := bind_eq_some_iff.mp h
    obtain ⟨func, hfunc, h⟩ := bind_eq_some_iff.mp h
    obtain ⟨v, hv, h⟩ := bind_eq_some_iff.mp h
    obtain ⟨t, ht, h⟩ := map_eq_some_iff.mp h
    refine ⟨m, v, t, hm, hv, ht, ?_⟩
    unfold opFuncs at hfunc
    split_ifs at hfunc with h₁ h₂ h₃ h₄ h₅ h₆ <;> cases hfunc
    · exact .inl ⟨h₁, by simpa using h⟩
    · exact .inr (.inl ⟨h₂, by simpa using h⟩)
    · exact .inr (.inr (.inl ⟨h₃, by simpa [compare_gt_iff_gt] using h⟩))
    · exact .inr (.inr (.inr (.inl ⟨h₄, by simpa [compare_lt_iff_lt] using h⟩)))
    · exact .inr (.inr (.inr (.inr (.inl ⟨h₅, by simpa [compare_lt_iff_lt] using h⟩))))
    · exact .inr (.inr (.inr (.inr (.inr ⟨h₆, by simpa [compare_gt_iff_gt] using h⟩))))
  · cases h

theorem satisfies_of_matchesSpec (hs : spec.strip = spec)
    (h : matchesSpec precedence version spec = true) : Satisfies precedence version spec := by
  rw [matchesSpec, hs] at h
  split_ifs at h with h₁ h₂ h₃
  · exact .inl h₁.symm
  · obtain ⟨v, hv⟩ := isSome_iff_exists.mp h₂.2
    exact .inr (.inl ⟨v, hv, (of_decide_eq_true h).symm.trans hv⟩)
  · exact .inr (.inr ⟨h₃, fun part hpart => meaning_of_passes (all_eq_true.mp h part hpart)⟩)

theorem key_le_of_matchesSpec (hs : spec.strip = spec)
    (h : matchesSpec precedence version spec = true) :
    versionKey precedence version ≤ versionKey precedence spec := by
  rw [matchesSpec, hs] at h
  split_ifs at h with h₁ h₂ h₃
  · rw [h₁]
  · have heq : precedence version = precedence spec := of_decide_eq_true h
    obtain ⟨v, hv⟩ := isSome_iff_exists.mp h₂.2
    simp [versionKey, ← heq, hv]
  · obtain ⟨part, hpart⟩ := exists_mem_of_ne_nil _ h₃
    obtain ⟨m, v, t, -, hv, -⟩ := meaning_of_passes (all_eq_true.mp h part hpart)
    cases hspec : precedence spec with
    | none => simp [versionKey, hv, hspec]
    | some t => exact absurd ⟨by rw [hspec]; rfl, by rw [hv]; rfl⟩ h₂

/-! ## What is selected -/

/-- The candidate is one that the reference leaves. -/
def keep (precedence : PyStr → Option V) (ref : AssetRef) (c : Candidate) : Bool :=
  sameAsset ref c && (versionSpec ref = "" ||
    if (versionSpec ref).lower ∈ channels then
      (channelFromManifest c).lower = (versionSpec ref).lower
    else matchesSpec precedence c.text (versionSpec ref))

theorem selected_eq : (selected precedence ref scan).1 = scan.filter (keep precedence ref) := by
  have hkeep : scan.filter (keep precedence ref) = (matchingCandidates ref scan).filter fun c =>
      versionSpec ref = "" || if (versionSpec ref).lower ∈ channels then
        (channelFromManifest c).lower = (versionSpec ref).lower
      else matchesSpec precedence c.text (versionSpec ref) := by
    rw [matchingCandidates, List.filter_filter]
    exact List.filter_congr fun c _ => Bool.and_comm _ _
  rw [hkeep]
  by_cases h₁ : matchingCandidates ref scan = []
  · simp [selected, h₁]
  · by_cases h₂ : versionSpec ref = ""
    · simp [selected, h₁, h₂]
    · by_cases h₃ : (versionSpec ref).lower ∈ channels <;> simp [selected, h₁, h₂, h₃]

theorem mem_selected : c ∈ (selected precedence ref scan).1 ↔
    c ∈ matchingCandidates ref scan ∧ (versionSpec ref = "" ∨
      IsChannel ref ∧ (channelFromManifest c).lower = (versionSpec ref).lower ∨
      ¬ IsChannel ref ∧ matchesSpec precedence c.text (versionSpec ref) = true) := by
  rw [selected_eq, matchingCandidates, mem_filter, mem_filter, and_assoc, keep, Bool.and_eq_true]
  by_cases h : (versionSpec ref).lower ∈ channels <;> simp [IsChannel, h]

theorem not_isChannel_empty (h : versionSpec ref = "") : ¬ IsChannel ref := by
  rw [IsChannel, h]
  decide

theorem offered_iff (precedence : PyStr → Option V) (hl : versionSpec ref = "" ∨ IsChannel ref) :
    Offered ref scan c ↔ c ∈ (selected precedence ref scan).1 := by
  rw [mem_selected, Offered]
  rcases hl with h | h
  · simp [h]
  · have hne : versionSpec ref ≠ "" := fun h' => not_isChannel_empty h' h
    simp [h, hne]

theorem highest_of_chosen (hc : chooseLatest precedence (selected precedence ref scan).1 = some c) :
    Highest precedence ref scan c :=
  ⟨argmax_mem hc, fun _ hd =>
    le_of_mem_argmax (f := fun c : Candidate => versionKey precedence c.text) hd hc⟩

theorem resolve_eq_ok {r : ResolvedAsset} (h : resolve precedence ref scan = .ok r) :
    ∃ c, Highest precedence ref scan c ∧ r.ref.version = c.ref.version := by
  unfold resolve at h
  cases hc : chooseLatest precedence (selected precedence ref scan).1 with
  | none => simp [hc] at h
  | some c =>
    simp only [hc, Except.ok.injEq] at h
    exact ⟨c, highest_of_chosen hc, by rw [← h]⟩

theorem resolve_of_mem (h : c ∈ (selected precedence ref scan).1) :
    ∃ d, Highest precedence ref scan d ∧
      (resolve precedence ref scan).map (·.ref) = .ok { ref with version := d.ref.version } := by
  cases hd : chooseLatest precedence (selected precedence ref scan).1 with
  | none =>
    rw [chooseLatest, argmax_eq_none] at hd
    simp [hd] at h
  | some d =>
    refine ⟨d, highest_of_chosen hd, ?_⟩
    rw [resolve, hd]
    rfl

theorem highest_perm {scan' : List Candidate} (h : scan'.Perm scan) :
    Highest precedence ref scan' c ↔ Highest precedence ref scan c := by
  have hmem : ∀ d, d ∈ (selected precedence ref scan').1 ↔ d ∈ (selected precedence ref scan).1 := by
    intro d
    simp [selected_eq, h.mem_iff]
  simp only [Highest, hmem]

/-- A highest candidate that the scan yields first is chosen. -/
theorem resolve_first (h : Highest precedence ref scan c) :
    ∃ scan' : List Candidate, scan'.Perm scan ∧
      (resolve precedence ref scan').map (·.ref) = .ok { ref with version := c.ref.version } := by
  have hmem := h.1
  rw [selected_eq] at hmem
  have hkeep := mem_filter.mp hmem
  have hperm := (perm_cons_erase hkeep.1).symm
  refine ⟨_, hperm, ?_⟩
  have hc : chooseLatest precedence (selected precedence ref (c :: scan.erase c)).1 = some c := by
    rw [selected_eq, filter_cons_of_pos hkeep.2]
    refine mem_argmax_iff.mpr ⟨mem_cons_self, fun d hd => ?_, fun d _ _ => by simp⟩
    rw [← filter_cons_of_pos hkeep.2, ← selected_eq] at hd
    exact ((highest_perm hperm).mpr h).2 d hd
  rw [resolve, hc]
  rfl

/-! ## The theorem -/

theorem versionKey_semver (h : versionKey precedence s ≤ versionKey precedence t) {v : V}
    (ht : precedence t = some v) : ∃ w, precedence s = some w ∧ w ≤ v := by
  cases hs : precedence s with
  | none =>
    simp only [versionKey, hs, ht] at h
    exact absurd h (Sum.Lex.not_inr_le_inl)
  | some w =>
    simp only [versionKey, hs, ht] at h
    exact ⟨w, rfl, Sum.Lex.inl_le_inl_iff.mp h⟩

theorem versionSpec_strip : (versionSpec ref).strip = versionSpec ref := strip_strip _

theorem laws_of_clear (h : Clear precedence ref scan) : Laws precedence ref scan where
  order := by
    intro scan' hperm
    by_cases hnil : (selected precedence ref scan).1 = []
    · have hnil' : (selected precedence ref scan').1 = [] := by
        rw [selected_eq, filter_eq_nil_iff] at hnil ⊢
        exact fun c hc => hnil c (hperm.mem_iff.mp hc)
      have hmatching : matchingCandidates ref scan' = [] ↔ matchingCandidates ref scan = [] := by
        simp [matchingCandidates, filter_eq_nil_iff, hperm.mem_iff]
      have herror : (selected precedence ref scan').2 = (selected precedence ref scan).2 := by
        by_cases hm : matchingCandidates ref scan = []
        · simp [selected, hm, hmatching.mpr hm]
        · simp [selected, hm, mt hmatching.mp hm, apply_ite Prod.snd]
      simp [resolve, chooseLatest, hnil, hnil', herror, Except.map]
    · obtain ⟨c, hc⟩ := exists_mem_of_ne_nil _ hnil
      obtain ⟨d, hd, hr⟩ := resolve_of_mem hc
      have hc' : c ∈ (selected precedence ref scan').1 := by
        simpa [selected_eq, hperm.mem_iff] using hc
      obtain ⟨d', hd', hr'⟩ := resolve_of_mem hc'
      rw [hr, hr', h.tie d' d ((highest_perm hperm).mp hd') hd]
  exact := by
    intro hne c hc htext
    -- a highest candidate has the version of the reference
    have hhighest : ∃ d, Highest precedence ref scan d ∧ d.text = versionSpec ref := by
      by_cases hchannel : IsChannel ref
      · exact h.named hchannel c hc htext
      · have hself : matchesSpec precedence c.text (versionSpec ref) = true := by
          rw [matchesSpec, versionSpec_strip, if_pos htext.symm]
        refine ⟨c, ⟨mem_selected.mpr ⟨hc, .inr (.inr ⟨hchannel, hself⟩)⟩, fun e he => ?_⟩, htext⟩
        obtain ⟨-, hempty | ⟨hno, -⟩ | ⟨-, hmatch⟩⟩ := mem_selected.mp he
        · exact absurd hempty hne
        · exact absurd hno hchannel
        · rw [htext]
          exact key_le_of_matchesSpec versionSpec_strip hmatch
    obtain ⟨d, hd, htext⟩ := hhighest
    obtain ⟨e, he, hr⟩ := resolve_of_mem hd.1
    cases hresolve : resolve precedence ref scan with
    | error err =>
      rw [hresolve] at hr
      cases hr
    | ok r =>
      obtain ⟨e, he, hversion⟩ := resolve_eq_ok hresolve
      refine ⟨r, rfl, ?_⟩
      rw [hversion, h.tie e d he hd]
      exact htext
  satisfied := by
    intro hne r hr
    obtain ⟨c, hc, hversion⟩ := resolve_eq_ok hr
    obtain ⟨hmem, hempty | ⟨hchannel, hof⟩ | ⟨hno, hmatch⟩⟩ := mem_selected.mp hc.1
    · exact absurd hempty hne
    · exact ⟨c, hmem, hversion.symm, fun _ => hof, fun hno => absurd hchannel hno⟩
    · exact ⟨c, hmem, hversion.symm, fun hchannel => absurd hchannel hno,
        fun _ => satisfies_of_matchesSpec versionSpec_strip hmatch⟩
  latest := by
    intro hl r hr c hc w hw
    obtain ⟨d, hd, hversion⟩ := resolve_eq_ok hr
    obtain ⟨v, hv⟩ := isSome_iff_exists.mp
      (h.mixed hl c d hc ((offered_iff precedence hl).mpr hd.1) (by rw [hw]; rfl))
    obtain ⟨w', hw', hle⟩ := versionKey_semver (hd.2 c ((offered_iff precedence hl).mp hc)) hv
    obtain rfl := Option.some.inj (hw.symm.trans hw')
    exact ⟨v, by rw [hversion]; exact hv, hle⟩

theorem clear_of_laws (h : Laws precedence ref scan) : Clear precedence ref scan where
  tie := by
    intro c d hc hd
    obtain ⟨scan₁, hperm₁, hr₁⟩ := resolve_first hc
    obtain ⟨scan₂, hperm₂, hr₂⟩ := resolve_first hd
    have hsame := (hr₁.symm.trans (h.order scan₁ hperm₁)).trans
      ((h.order scan₂ hperm₂).symm.trans hr₂)
    exact (AssetRef.mk.inj (Except.ok.inj hsame)).2.2.2
  mixed := by
    intro hl c d hc hd hsemver
    obtain ⟨w, hw⟩ := isSome_iff_exists.mp hsemver
    obtain ⟨e, he, hr⟩ := resolve_of_mem ((offered_iff precedence hl).mp hc)
    cases hresolve : resolve precedence ref scan with
    | error err =>
      rw [hresolve] at hr
      cases hr
    | ok r =>
      obtain ⟨e, he, hversion⟩ := resolve_eq_ok hresolve
      obtain ⟨v, hv, -⟩ := h.latest hl r hresolve c hc w hw
      rw [hversion] at hv
      obtain ⟨w', hw', -⟩ := versionKey_semver (he.2 d ((offered_iff precedence hl).mp hd)) hv
      rw [hw']
      rfl
  named := by
    intro hchannel c hc htext
    have hne : versionSpec ref ≠ "" := fun hempty => not_isChannel_empty hempty hchannel
    obtain ⟨r, hr, hversion⟩ := h.exact hne c hc htext
    obtain ⟨d, hd, hversion'⟩ := resolve_eq_ok hr
    exact ⟨d, hd, by rw [Candidate.text, ← hversion', hversion]⟩

/-- The resolver keeps its promises for a reference and what a scan has found if and only if the
highest candidates have one version, the latest is not between semantic versions and others, and
no version bears the name of the channel. -/
theorem resolver_laws (precedence : PyStr → Option V) (ref : AssetRef) (scan : List Candidate) :
    Laws precedence ref scan ↔ Clear precedence ref scan :=
  ⟨clear_of_laws, laws_of_clear⟩

/-! ## A nightly build -/

def release (version : PyStr) : Candidate :=
  ⟨⟨"skill", "ns", "pick", some version⟩, version, none, none⟩

def latestPick : AssetRef := ⟨"skill", "ns", "pick", none⟩

/-- The semantic versions here: one release, and two builds of another. -/
def somePrecedence (version : PyStr) : Option Nat :=
  if version = "1.0.0" then some 0
  else if version = "2.0.0+a" ∨ version = "2.0.0+b" then some 1 else none

/-- The latest of a release and a nightly build is the nightly build, and of two builds of one
release the latest is the first that is scanned. -/
theorem nightly_is_latest :
    resolve somePrecedence latestPick [release "1.0.0", release "nightly"] =
        .ok ⟨{ latestPick with version := some "nightly" }, "nightly"⟩ ∧
      resolve somePrecedence latestPick [release "2.0.0+a", release "2.0.0+b"] ≠
        resolve somePrecedence latestPick [release "2.0.0+b", release "2.0.0+a"] ∧
      ¬ Laws somePrecedence latestPick [release "1.0.0", release "nightly"] := by
  have hnightly : resolve somePrecedence latestPick [release "1.0.0", release "nightly"] =
      .ok ⟨{ latestPick with version := some "nightly" }, "nightly"⟩ := by decide +kernel
  refine ⟨hnightly, by decide +kernel, fun h => ?_⟩
  obtain ⟨v, hv, -⟩ := h.latest (.inl (by decide)) _ hnightly (release "1.0.0")
    ⟨by decide, .inl (by decide)⟩ 0 (by decide)
  have hnone : somePrecedence "nightly" = none := by decide
  exact absurd (hnone.symm.trans hv) (by simp)

end Rosclaw.Hub
