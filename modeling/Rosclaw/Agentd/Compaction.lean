/-
Where a compaction cuts the history.

The tokens are counted from the last message back until the budget is spent; the cut then moves
on to a boundary at which the two messages next to it are not tied, and from there to a message
of the user, as long as every boundary on the way is one.

* `Start`, `Stop` — where the cut starts to move, and where it can come to rest;
* `advance_spec` — what a loop does that moves an index on;
* `findCutPoint_spec` — the cut is the first stop after the start, or the end;
* `cut_safe_iff` — the condition on the history;
* `last_message_dropped` — a last message above the budget, and a group in two parts.
-/
import Rosclaw.Lib.PyVal

namespace Rosclaw.Compaction

/-! ### Counting -/

/-- `estimate_tokens`, with four characters to a token. -/
def estimateTokens (text : PyStr) : Nat :=
  if text.length = 0 then 0 else max 1 ((text.length + 4 - 1) / 4)

-- `json.dumps(v, ensure_ascii=False)`, for what comes from JSON
variable (dumps : PyVal → PyStr)

def contentTokens : PyVal → Nat
  | .str s => estimateTokens s
  | .list xs => estimateTokens (dumps (.list xs))
  | _ => 0

def messageTokens (message : PyVal) : Nat :=
  contentTokens dumps (message.get "content")
    + if (message.get "tool_calls").truthy then estimateTokens (dumps (message.get "tool_calls"))
      else 0

/-- `messages[index]`, for an index below the length. -/
def entry (messages : List PyVal) (index : Nat) : PyVal := messages.getD index .none

def isNone : PyVal → Bool
  | .none => true
  | _ => false

def hasRole (message : PyVal) (role : String) : Bool := (message.get "role").pyEq (.str role)

def sameGroup (left right : PyVal) : Bool :=
  !isNone (left.get "atomic_group") && (left.get "atomic_group").pyEq (right.get "atomic_group")

/-- `_turn_boundary_ok`. -/
def turnBoundaryOk (messages : List PyVal) (cut : Nat) : Bool :=
  if cut = 0 ∨ messages.length ≤ cut then true
  else if sameGroup (entry messages (cut - 1)) (entry messages cut) then false
  else if ((entry messages (cut - 1)).get "tool_calls").truthy then false
  else !hasRole (entry messages cut) "tool"

/-! ### The cut -/

/-- The loop that counts back from an index: where the cut starts, unless everything fits. -/
def scan (messages : List PyVal) (keepRecentTokens : Int) : Nat → Nat → Option Nat
  | _, 0 => none
  | accumulated, index + 1 =>
      let accumulated := accumulated + messageTokens dumps (entry messages index)
      if keepRecentTokens < accumulated then some (min messages.length (index + 1))
      else scan messages keepRecentTokens accumulated index

/-- `while p(cut): cut += 1`. -/
def advance (p : Nat → Bool) : Nat → Nat → Nat
  | 0, cut => cut
  | fuel + 1, cut => if p cut then advance p fuel (cut + 1) else cut

/-- The cut is put off: it divides a turn. -/
def unaligned (messages : List PyVal) (cut : Nat) : Bool :=
  cut < messages.length && !turnBoundaryOk messages cut

/-- A cut that is put off by one, to a boundary. -/
def unsettled (messages : List PyVal) (cut : Nat) : Bool :=
  0 < cut && cut < messages.length && !hasRole (entry messages cut) "user"
    && turnBoundaryOk messages (cut + 1)

def findCutPoint (messages : List PyVal) (keepRecentTokens : Int) : Nat :=
  match scan dumps messages keepRecentTokens 0 messages.length with
  | none => 0
  | some start =>
      advance (unsettled messages) messages.length
        (advance (unaligned messages) messages.length start)

/-! ### What a cut must not do -/

def answers (call result : PyVal) : Prop :=
  hasRole call "assistant" = true ∧ hasRole result "tool" = true
    ∧ ∃ calls, call.get "tool_calls" = .list calls
      ∧ ∃ c ∈ calls, ∃ id, c.get "id" = .str id ∧ result.get "tool_call_id" = .str id

/-- A call and its result, or two entries of one atomic group. -/
def Tied (left right : PyVal) : Prop :=
  answers left right ∨ answers right left ∨ sameGroup left right = true

/-- Two entries that are tied come to lie on both sides of the cut. -/
def Separates (messages : List PyVal) (cut : Nat) : Prop :=
  ∃ i j, i < cut ∧ cut ≤ j ∧ j < messages.length ∧ Tied (entry messages i) (entry messages j)

/-- The cut separates nothing that is tied, and leaves something of a history. -/
structure Safe (messages : List PyVal) (cut : Nat) : Prop where
  together : ¬Separates messages cut
  kept : messages ≠ [] → cut < messages.length

/-! ### Where the cut comes to rest -/

def tokensFrom (messages : List PyVal) (index : Nat) : Nat :=
  ((messages.drop index).map (messageTokens dumps)).sum

/-- The whole history is within the budget. -/
def Fits (messages : List PyVal) (keepRecentTokens : Int) : Prop :=
  messages = [] ∨ tokensFrom dumps messages 0 ≤ keepRecentTokens

/-- What is at the index and after it is within the budget, and with the message before it is
not.  At the end nothing is left, whatever the budget is. -/
def Start (messages : List PyVal) (keepRecentTokens : Int) (start : Nat) : Prop :=
  0 < start ∧ start ≤ messages.length
    ∧ keepRecentTokens < tokensFrom dumps messages (start - 1)
    ∧ (start < messages.length → tokensFrom dumps messages start ≤ keepRecentTokens)

/-- A boundary that is before a message of the user, or before a message that is tied to the next
one. -/
def Stop (messages : List PyVal) (cut : Nat) : Prop :=
  turnBoundaryOk messages cut = true
    ∧ (hasRole (entry messages cut) "user" = true ∨ turnBoundaryOk messages (cut + 1) = false)

theorem advance_spec {p : Nat → Bool} {n : Nat} (hp : ∀ k, p k = true → k < n) (fuel : Nat)
    {k : Nat} (hk : k ≤ n) (hfuel : n ≤ k + fuel) :
    k ≤ advance p fuel k ∧ advance p fuel k ≤ n ∧ p (advance p fuel k) = false
      ∧ ∀ q, k ≤ q → q < advance p fuel k → p q = true := by
  induction fuel generalizing k with
  | zero =>
    have hend : p k = false := by
      rw [Bool.eq_false_iff]
      intro hpk
      have := hp k hpk
      omega
    exact ⟨le_refl k, hk, hend, fun q hkq hqk => absurd hqk (by exact Nat.not_lt.mpr hkq)⟩
  | succ fuel ih =>
    rw [advance]
    split_ifs with hpk
    · have hlt := hp k hpk
      obtain ⟨hle, hn, hend, hall⟩ := ih (k := k + 1) hlt (by omega)
      refine ⟨by omega, hn, hend, fun q hkq hq => ?_⟩
      obtain rfl | hkq' := eq_or_lt_of_le hkq
      · exact hpk
      · exact hall q hkq' hq
    · exact ⟨le_refl k, hk, by simpa using hpk, fun q hkq hqk => absurd hqk (Nat.not_lt.mpr hkq)⟩

theorem tokensFrom_succ {messages : List PyVal} {index : Nat} (h : index < messages.length) :
    tokensFrom dumps messages index
      = messageTokens dumps (entry messages index) + tokensFrom dumps messages (index + 1) := by
  have hentry : entry messages index = messages[index] := by
    rw [entry, List.getD_eq_getElem?_getD, List.getElem?_eq_getElem h, Option.getD_some]
  rw [tokensFrom, List.drop_eq_getElem_cons h, List.map_cons, List.sum_cons, hentry]
  rfl

theorem tokensFrom_length (messages : List PyVal) :
    tokensFrom dumps messages messages.length = 0 := by
  rw [tokensFrom, List.drop_length]
  rfl

theorem tokensFrom_antitone (messages : List PyVal) : Antitone (tokensFrom dumps messages) := by
  refine antitone_nat_of_succ_le fun index => ?_
  obtain hlt | hge := Nat.lt_or_ge index messages.length
  · rw [tokensFrom_succ dumps hlt]
    omega
  · rw [tokensFrom, List.drop_eq_nil_of_le (by omega)]
    exact Nat.zero_le _

variable {dumps} {messages : List PyVal} {keepRecentTokens : Int}

theorem scan_spec {index : Nat} (hindex : index ≤ messages.length)
    (hleft : index < messages.length → tokensFrom dumps messages index ≤ keepRecentTokens) :
    (scan dumps messages keepRecentTokens (tokensFrom dumps messages index) index = none →
        Fits dumps messages keepRecentTokens)
      ∧ ∀ start, scan dumps messages keepRecentTokens (tokensFrom dumps messages index) index
          = some start → Start dumps messages keepRecentTokens start := by
  induction index with
  | zero =>
    refine ⟨fun _ => ?_, fun start h => by cases h⟩
    obtain hnil | hpos := Nat.eq_zero_or_pos messages.length
    · exact .inl (List.length_eq_zero_iff.mp hnil)
    · exact .inr (hleft hpos)
  | succ index ih =>
    have hsum : tokensFrom dumps messages (index + 1) + messageTokens dumps (entry messages index)
        = tokensFrom dumps messages index := by
      rw [tokensFrom_succ dumps hindex]
      omega
    rw [scan, hsum]
    split_ifs with hover
    · refine ⟨fun h => (by cases h), fun start h => ?_⟩
      cases h
      rw [Nat.min_eq_right hindex]
      exact ⟨by omega, hindex, hover, hleft⟩
    · exact ih (by omega) fun _ => by omega

theorem Start.unique {s s' : Nat} (h : Start dumps messages keepRecentTokens s)
    (h' : Start dumps messages keepRecentTokens s') : s = s' := by
  -- the later one would have spent the budget that the earlier one leaves
  have hnot : ∀ {s s' : Nat}, Start dumps messages keepRecentTokens s →
      Start dumps messages keepRecentTokens s' → ¬s < s' := by
    rintro s s' ⟨-, -, -, hleft⟩ ⟨-, hle, hover, -⟩ hlt
    have hmono := tokensFrom_antitone dumps messages (show s ≤ s' - 1 by omega)
    have := hleft (by omega)
    omega
  have := hnot h h'
  have := hnot h' h
  omega

theorem not_fits_of_start {s : Nat} (h : Start dumps messages keepRecentTokens s) :
    ¬Fits dumps messages keepRecentTokens := by
  obtain ⟨hpos, hle, hover, -⟩ := h
  rintro (rfl | hfits)
  · rw [List.length_nil] at hle
    omega
  · have hmono := tokensFrom_antitone dumps messages (Nat.zero_le (s - 1))
    omega

variable (dumps) in
theorem scan_eq (messages : List PyVal) (keepRecentTokens : Int) :
    (scan dumps messages keepRecentTokens 0 messages.length = none ∧
        Fits dumps messages keepRecentTokens)
      ∨ ∃ start, scan dumps messages keepRecentTokens 0 messages.length = some start ∧
          Start dumps messages keepRecentTokens start := by
  have hspec := @scan_spec dumps messages keepRecentTokens messages.length (le_refl _)
    fun h => absurd h (lt_irrefl _)
  rw [tokensFrom_length] at hspec
  cases hs : scan dumps messages keepRecentTokens 0 messages.length with
  | none => exact .inl ⟨rfl, hspec.1 hs⟩
  | some start => exact .inr ⟨start, rfl, hspec.2 start hs⟩

theorem findCutPoint_of_fits (h : Fits dumps messages keepRecentTokens) :
    findCutPoint dumps messages keepRecentTokens = 0 := by
  obtain ⟨hs, -⟩ | ⟨start, -, hstart⟩ := scan_eq dumps messages keepRecentTokens
  · rw [findCutPoint, hs]
  · exact absurd h (not_fits_of_start hstart)

theorem not_stop_of_unaligned {cut : Nat} (h : unaligned messages cut = true) :
    ¬Stop messages cut := by
  rintro ⟨hok, -⟩
  rw [unaligned, hok] at h
  simp at h

theorem not_stop_of_unsettled {cut : Nat} (h : unsettled messages cut = true) :
    ¬Stop messages cut := by
  simp only [unsettled, Bool.and_eq_true, Bool.not_eq_true'] at h
  rintro ⟨-, huser | hnext⟩
  · rw [h.1.2] at huser
    cases huser
  · rw [h.2] at hnext
    cases hnext

theorem findCutPoint_spec (h : ¬Fits dumps messages keepRecentTokens) :
    ∃ s, Start dumps messages keepRecentTokens s ∧ s ≤ findCutPoint dumps messages keepRecentTokens
      ∧ findCutPoint dumps messages keepRecentTokens ≤ messages.length
      ∧ (findCutPoint dumps messages keepRecentTokens < messages.length →
          Stop messages (findCutPoint dumps messages keepRecentTokens))
      ∧ ∀ q, s ≤ q → q < findCutPoint dumps messages keepRecentTokens → ¬Stop messages q := by
  obtain ⟨-, hfits⟩ | ⟨s, hs, hstart⟩ := scan_eq dumps messages keepRecentTokens
  · exact absurd hfits h
  refine ⟨s, hstart, ?_⟩
  have hcut : findCutPoint dumps messages keepRecentTokens
      = advance (unsettled messages) messages.length
          (advance (unaligned messages) messages.length s) := by
    rw [findCutPoint, hs]
  rw [hcut]
  obtain ⟨hle₁, hn₁, hend₁, hall₁⟩ := advance_spec (p := unaligned messages)
    (n := messages.length) (fun k hk => by simp [unaligned] at hk; exact hk.1) messages.length
    hstart.2.1 (by omega)
  generalize advance (unaligned messages) messages.length s = k at *
  obtain ⟨hle₂, hn₂, hend₂, hall₂⟩ := advance_spec (p := unsettled messages)
    (n := messages.length) (fun k hk => by simp [unsettled] at hk; exact hk.1.1.2)
    messages.length hn₁ (by omega)
  generalize advance (unsettled messages) messages.length k = c at *
  refine ⟨by omega, hn₂, fun hc => ?_, fun q hsq hqc => ?_⟩
  · -- the cut is a boundary: the first loop ended there, or the second one looked ahead
    have hok : turnBoundaryOk messages c = true := by
      obtain rfl | hlt := eq_or_lt_of_le hle₂
      · simpa [unaligned, hc] using hend₁
      · have hbefore := hall₂ (c - 1) (by omega) (by omega)
        simp only [unsettled, Bool.and_eq_true] at hbefore
        rw [← show c - 1 + 1 = c by omega]
        exact hbefore.2
    refine ⟨hok, ?_⟩
    by_contra hnone
    rw [not_or, Bool.not_eq_true, Bool.not_eq_false] at hnone
    have hpos : 0 < c := by
      have := hstart.1
      omega
    simp [unsettled, hpos, hc, hnone.1, hnone.2] at hend₂
  · obtain hqk | hkq := Nat.lt_or_ge q k
    · exact not_stop_of_unaligned (hall₁ q hsq hqk)
    · exact not_stop_of_unsettled (hall₂ q hkq hqc)

/-- **When the cut is safe.**  Everything fits; or, of the indices from the start on, one before
the end is a stop, and nothing that is tied reaches over the first one. -/
theorem cut_safe_iff (messages : List PyVal) (keepRecentTokens : Int) :
    Safe messages (findCutPoint dumps messages keepRecentTokens)
      ↔ Fits dumps messages keepRecentTokens
        ∨ ∃ s p, Start dumps messages keepRecentTokens s ∧ s ≤ p ∧ p < messages.length
          ∧ Stop messages p ∧ (∀ q, s ≤ q → q < p → ¬Stop messages q)
          ∧ ¬Separates messages p := by
  by_cases hfits : Fits dumps messages keepRecentTokens
  · rw [findCutPoint_of_fits hfits]
    refine iff_of_true ⟨?_, fun hne => List.length_pos_of_ne_nil hne⟩ (.inl hfits)
    rintro ⟨i, -, hi, -⟩
    omega
  · obtain ⟨s, hs, hle, hn, hstop, hfirst⟩ := findCutPoint_spec hfits
    constructor
    · intro hsafe
      have hlt := hsafe.kept fun hnil => hfits (.inl hnil)
      exact .inr ⟨s, _, hs, hle, hlt, hstop hlt, hfirst, hsafe.together⟩
    · rintro (hfits' | ⟨s', p, hs', hsp, hpn, hp, hbefore, htogether⟩)
      · exact absurd hfits' hfits
      · rw [hs.unique hs'] at hle hfirst
        have hcut : findCutPoint dumps messages keepRecentTokens = p := by
          obtain hlt | heq | hgt := lt_trichotomy
            (findCutPoint dumps messages keepRecentTokens) p
          · exact absurd (hstop (by omega)) (hbefore _ hle hlt)
          · exact heq
          · exact absurd hp (hfirst p hsp hgt)
        rw [hcut]
        exact ⟨htogether, fun _ => hpn⟩

def message (role content : String) : PyVal := .dict [("role", .str role), ("content", .str content)]

def grouped (content group : String) : PyVal :=
  .dict [("role", .str "user"), ("content", .str content), ("atomic_group", .str group)]

/-- A last message of two tokens, with a budget of one; and a group around another message. -/
theorem last_message_dropped :
    (findCutPoint (fun _ => "") [message "user" "go", message "assistant" "finished"] 1 = 2
      ∧ ¬Safe [message "user" "go", message "assistant" "finished"] 2)
      ∧ findCutPoint (fun _ => "")
          [grouped "evidence" "g1", message "user" "wait", grouped "card" "g1"] 2 = 1
      ∧ ¬Safe [grouped "evidence" "g1", message "user" "wait", grouped "card" "g1"] 1 := by
  refine ⟨⟨by decide, fun hsafe => ?_⟩, by decide, fun hsafe => ?_⟩
  · have hlt := hsafe.kept (by simp)
    simp at hlt
  · refine hsafe.together ⟨0, 2, by omega, by omega, by decide, .inr (.inr ?_)⟩
    rfl

end Rosclaw.Compaction
