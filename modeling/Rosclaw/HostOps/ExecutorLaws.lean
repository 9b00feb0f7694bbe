/-
What `execute` runs on the host, and when it returns.

* `Safe` — the operations ran in order up to the first that failed, and each has a result;
* `executeOp_meets` — an operation of a valid plan ends as its verdict says;
* `execute_safe_iff` — **`execute` is safe if and only if the operations that are reached are
  clean**;
* `install_removes` — a valid plan that removes a package by installing one.
-/
import Rosclaw.HostOps.Executor

namespace Rosclaw.HostOps

open List Option

/-! ### What may run -/

def brokerPrefix : OpType → Option (List PyStr)
  | .packageInstall => some ["apt-get", "install", "-y"]
  | .packageRemove => some ["apt-get", "remove", "-y"]
  | .packageUpdate => some ["apt-get", "update"]
  | .packageInstallDeb => some ["dpkg", "-i"]
  | .repositoryEnable => some ["add-apt-repository", "-y"]
  | .systemdEnable => some ["systemctl", "enable"]
  | .systemdStart => some ["systemctl", "start"]
  | .systemdRestart => some ["systemctl", "restart"]
  | .udevReload => some ["udevadm", "control", "--reload-rules"]
  | .userGroupAdd => some ["usermod", "-aG"]
  | _ => none

def textField (key : PyStr) (fields : List (PyStr × PyVal)) : Option PyStr :=
  (field? key fields).bind fun v => match v with
    | .str s => some s
    | _ => none

def declared (t : OpType) (fields : List (PyStr × PyVal)) : Option (List PyStr) :=
  match t with
  | .packageInstall | .packageRemove => (field? "packages" fields).bind fun v => match v with
    | .str s => some [s]
    | .list xs => texts xs
    | _ => none
  | .packageUpdate | .udevReload => some []
  | .packageInstallDeb => (textField "artifact" fields).map fun s => [s]
  | .repositoryEnable => (textField "repository" fields).map fun s => [s]
  | .systemdEnable | .systemdStart | .systemdRestart => (textField "unit" fields).map fun s => [s]
  | .userGroupAdd => (textField "group" fields).bind fun group =>
      (textField "user" fields).map fun user => [group, user]
  | _ => none

/-- The argument for a declared text: an artifact is given by its path. -/
def argument (h : Host) (t : OpType) (s : PyStr) : PyStr :=
  if t = .packageInstallDeb then h.artifactPath s else s

def isOption (s : PyStr) : Bool := s.codes.head? = some 45

/-- `apt-get` removes what it is to install, or the other way round: a name with a hyphen or a
plus sign after it, unless there is a package of that name. -/
def changesKind (isPackage : PyStr → Bool) (t : OpType) (s : PyStr) : Bool :=
  match t with
  | .packageInstall => !isPackage s && decide (s.codes.getLast? = some 45)
  | .packageRemove => !isPackage s && decide (s.codes.getLast? = some 43)
  | _ => false

variable (isPackage : PyStr → Bool)

def Allowed (h : Host) (op : PyVal) : Option Effect → Prop
  | none => True
  | some .python => ∃ t fields, typed op = some (t, fields) ∧
      (t = .artifactFetch ∨ t = .fileManagedWrite)
  | some (.ran argv) => ∃ t fields pre tokens, typed op = some (t, fields) ∧
      brokerPrefix t = some pre ∧ declared t fields = some tokens ∧
      argv = pre ++ tokens.map (argument h t) ∧
      ∀ s ∈ tokens, isOption s = false ∧ changesKind isPackage t s = false

/-- The operations from `i` on, what they have run, and their results. -/
inductive Safe (host : Nat → Host) :
    Nat → List PyVal → List (Option Effect) → List Result → Prop
  | done {i : Nat} : Safe host i [] [] []
  | failed {i : Nat} {op : PyVal} {ops : List PyVal} {effect : Option Effect} {result : Result} :
      Allowed isPackage (host i) op effect → result.failed = true →
        Safe host i (op :: ops) [effect] [result]
  | next {i : Nat} {op : PyVal} {ops : List PyVal} {effect : Effect}
      {effects : List (Option Effect)} {result : Result} {results : List Result} :
      Allowed isPackage (host i) op (some effect) → result.failed = false →
        Safe host (i + 1) ops effects results →
          Safe host i (op :: ops) (some effect :: effects) (result :: results)

/-! ### The condition -/

inductive Verdict
  | succeeds
  | fails
  /-- it runs something else, or an exception is not caught -/
  | spoils
deriving DecidableEq, Repr

def childVerdict (h : Host) : Verdict :=
  match h.child with
  | .exited returncode _ => if returncode = 0 then .succeeds else .fails
  | _ => .spoils

def packages (fields : List (PyStr × PyVal)) : Option (List PyStr) :=
  match field? "packages" fields with
  | some (.list xs) => texts xs
  | some (.str s) => if s.codes.length = 1 then some [s] else none
  | _ => none

def packageVerdict (h : Host) (t : OpType) (fields : List (PyStr × PyVal)) : Verdict :=
  match packages fields with
  | some tokens => if ∀ s ∈ tokens, changesKind isPackage t s = false then childVerdict h
      else .spoils
  | none => .spoils

def artifactVerdict (h : Host) (fields : List (PyStr × PyVal)) : Verdict :=
  match textField "artifact" fields with
  | none => .spoils
  | some name =>
      if hasSub name "/" = true ∨ hasSub name ".." = true ∨ name.codes = [] then .fails
      else match h.artifactExists name with
        | none => .spoils
        | some false => .fails
        | some true => childVerdict h

def fetchVerdict (h : Host) (fields : List (PyStr × PyVal)) : Verdict :=
  let op := PyVal.dict fields
  let name := strOf h (orElse (orElse (op.get "name") (op.get "source")) (text ""))
  let expected := strOf h (op.getD "sha256" (text ""))
  if name.codes = [] ∨ hasSub name "/" = true ∨ hasSub name ".." = true ∨
      (strOf h (op.getD "url" (text ""))).codes = [] ∨ expected.codes = [] then .fails
  else match h.fetch with
    | .failed _ => .fails
    | .raised _ => .spoils
    | .blob actual => if actual ≠ expected then .fails else if h.stored then .succeeds else .spoils

def writeVerdict (h : Host) (fields : List (PyStr × PyVal)) : Verdict :=
  let op := PyVal.dict fields
  let rawPath := strOf h (op.getD "path" (text ""))
  match octal (strOf h (op.getD "mode" (text "0644"))) with
  | none => .spoils
  | some mode =>
      if rawPath.codes.head? ≠ some 47 then .fails
      else match h.realpath rawPath with
        | none => .spoils
        | some (_, managed) =>
            if managed = false then .fails
            else if h.stored = true ∧ isCInt mode = true then .succeeds
            else .spoils

def verdict (h : Host) (op : PyVal) : Verdict :=
  match typed op with
  | none => .spoils
  | some (t, fields) => match t with
    | .packageInstall | .packageRemove => packageVerdict isPackage h t fields
    | .packageUpdate | .udevReload => childVerdict h
    | .packageInstallDeb => artifactVerdict h fields
    | .repositoryEnable | .systemdEnable | .systemdStart | .systemdRestart | .userGroupAdd =>
        if (declared t fields).isSome then childVerdict h else .spoils
    | .artifactFetch => fetchVerdict h fields
    | .fileManagedWrite => writeVerdict h fields
    | _ => .fails

def Clean (host : Nat → Host) : Nat → List PyVal → Prop
  | _, [] => True
  | i, op :: ops => verdict isPackage (host i) op ≠ .spoils ∧
      (verdict isPackage (host i) op = .succeeds → Clean host (i + 1) ops)

/-! ### Fields -/

variable {approval plan v : PyVal} {argv argv' pre tokens : List PyStr} {effect : Option Effect}
  {host : Nat → Host} {key s : PyStr} {ops vs : List PyVal} (ss : List PyStr)

theorem mem_of_field? {fields : List (PyStr × PyVal)} (h : field? key fields = some v) :
    (key, v) ∈ fields := by
  induction fields with
  | nil => cases h
  | cons e fields ih =>
    obtain ⟨k, w⟩ := e
    unfold field? at h
    split at h
    · next hk =>
      cases h
      rw [hk]
      exact mem_cons_self
    · exact mem_cons_of_mem _ (ih h)

variable {i : Nat}

theorem field_valid {t : OpType} {fields : List (PyStr × PyVal)}
    (hfields : validateFields i t fields = .ok ()) (hfield : field? key fields = some v)
    (hkey : key ≠ "type") (ht : t ≠ .fileManagedWrite) : validateValue i key v = .ok () := by
  have hvalid := validateFields_mem hfields (mem_of_field? hfield)
  unfold validateField at hvalid
  rw [if_neg hkey, if_neg fun hand => ht hand.1, if_neg fun hand => ht hand.1] at hvalid
  exact hvalid

theorem typed_of_valid {op : PyVal} (h : validateOperation i op = .ok ()) :
    ∃ t fields, typed op = some (t, fields) ∧ validateFields i t fields = .ok () := by
  cases op with
  | dict fields =>
    unfold validateOperation at h
    cases htype : PyVal.getEntry "type" .none fields with
    | str type =>
      simp only [htype] at h
      split at h
      · cases h
      · cases hname : OpType.ofName type with
        | none =>
          simp only [hname] at h
          cases h
        | some t =>
          simp only [hname] at h
          split at h
          · cases h
          · refine ⟨t, fields, ?_, h⟩
            simp only [typed, htype, hname, map_some]
    | _ =>
      simp only [htype] at h
      cases h
  | _ => cases h

theorem not_option (h : safeToken s = true) : isOption s = false := by
  obtain ⟨c, cs, hcodes, hc⟩ := safeToken_head h
  unfold isOption
  rw [hcodes, List.head?_cons]
  refine decide_eq_false fun heq => ?_
  obtain rfl : c = 45 := Option.some.inj heq
  cases hc

theorem texts_map : texts (ss.map .str) = some ss := by
  induction ss with
  | nil => rfl
  | cons s ss ih =>
    rw [map_cons, texts, ih, map_some]

theorem eq_of_texts {ss : List PyStr} (h : texts vs = some ss) : vs = ss.map .str := by
  induction vs generalizing ss with
  | nil =>
    cases h
    rfl
  | cons v vs ih =>
    cases v with
    | str s =>
      obtain ⟨ss', hss', rfl⟩ := map_eq_some_iff.mp h
      rw [map_cons, ← ih hss']
    | _ => cases h

theorem texts_append (vs : List PyVal) : texts (ss.map .str ++ vs) = (texts vs).map (ss ++ ·) := by
  induction ss with
  | nil =>
    rw [List.map_nil, List.nil_append]
    exact (Option.map_id_apply).symm
  | cons s ss ih =>
    rw [List.map_cons, List.cons_append, texts, ih, Option.map_map]
    rfl

/-! ### One operation -/

def Meets (h : Host) (op : PyVal) : Verdict → Option Effect × Except String Result → Prop
  | .succeeds, x => ∃ effect result, x = (some effect, .ok result) ∧ result.failed = false ∧
      Allowed isPackage h op (some effect)
  | .fails, x => ∃ effect result, x = (effect, .ok result) ∧ result.failed = true ∧
      Allowed isPackage h op effect
  | .spoils, x => ∀ effect result, x = (effect, .ok result) → ¬ Allowed isPackage h op effect

variable {isPackage} {h : Host} {op : PyVal} {t : OpType} {fields : List (PyStr × PyVal)}

theorem executeOp_eq (htyped : typed op = some (t, fields)) :
    executeOp h op = ((tryOp h t fields).1, caught t (tryOp h t fields).2) := by
  simp only [executeOp, htyped]

theorem meets_raised (htyped : typed op = some (t, fields)) {exception : String}
    (htry : tryOp h t fields = (effect, .error (.raised exception))) :
    Meets isPackage h op .spoils (executeOp h op) := by
  rw [executeOp_eq htyped, htry]
  intro effect' result heq
  cases (Prod.mk.inj heq).2

theorem meets_refused (htyped : typed op = some (t, fields)) {reason : Refusal}
    (htry : tryOp h t fields = (effect, .error (.refused reason)))
    (hallowed : Allowed isPackage h op effect) : Meets isPackage h op .fails (executeOp h op) := by
  rw [executeOp_eq htyped, htry]
  exact ⟨effect, .refused t reason, rfl, rfl, hallowed⟩

theorem meets_child (htyped : typed op = some (t, fields))
    (htry : tryOp h t fields = runChild h t argv) (hpre : brokerPrefix t = some pre)
    (hdeclared : declared t fields = some tokens) (hargv : argv = pre ++ tokens.map (argument h t))
    (htokens : ∀ s ∈ tokens, isOption s = false ∧ changesKind isPackage t s = false) :
    Meets isPackage h op (childVerdict h) (executeOp h op) := by
  have hallowed : Allowed isPackage h op (some (.ran argv)) :=
    ⟨t, fields, pre, tokens, htyped, hpre, hdeclared, hargv, htokens⟩
  rw [executeOp_eq htyped, htry]
  unfold runChild childVerdict
  cases h.child with
  | exited returncode stderr =>
    by_cases hzero : returncode = 0
    · simp only [hzero, if_true]
      exact ⟨_, _, rfl, rfl, hallowed⟩
    · simp only [hzero, if_false]
      exact ⟨_, _, rfl, decide_eq_true hzero, hallowed⟩
  | _ =>
    intro effect result heq
    cases (Prod.mk.inj heq).2

theorem meets_other (htyped : typed op = some (t, fields))
    (htry : tryOp h t fields = runChild h t argv)
    (hother : ¬ Allowed isPackage h op (some (.ran argv))) :
    Meets isPackage h op .spoils (executeOp h op) := by
  rw [executeOp_eq htyped, htry]
  unfold runChild
  cases h.child with
  | exited returncode stderr =>
    intro effect result heq
    obtain rfl := (Prod.mk.inj heq).1
    exact hother
  | _ =>
    intro effect result heq
    cases (Prod.mk.inj heq).2

theorem allowed_ran (htyped : typed op = some (t, fields))
    (hallowed : Allowed isPackage h op (some (.ran argv))) :
    ∃ pre tokens, brokerPrefix t = some pre ∧ declared t fields = some tokens ∧
      argv = pre ++ tokens.map (argument h t) ∧
      ∀ s ∈ tokens, isOption s = false ∧ changesKind isPackage t s = false := by
  obtain ⟨t', fields', pre, tokens, htyped', hrest⟩ := hallowed
  obtain ⟨rfl, rfl⟩ := Prod.mk.inj (Option.some.inj (htyped.symm.trans htyped'))
  exact ⟨pre, tokens, hrest⟩

def OpType.isPython (t : OpType) : Bool := t = .artifactFetch || t = .fileManagedWrite

theorem tryOp_error {e : Exn} (ht : t.isPython = false) (hargv : toArgv h t fields = .error e) :
    tryOp h t fields = (none, .error e) := by
  cases t with
  | artifactFetch => cases ht
  | fileManagedWrite => cases ht
  | _ => simp only [tryOp, hargv]

theorem tryOp_none {argv : List PyVal} (ht : t.isPython = false)
    (hargv : toArgv h t fields = .ok argv) (htexts : texts argv = none) :
    tryOp h t fields = (none, .error (.raised "TypeError")) := by
  cases t with
  | artifactFetch => cases ht
  | fileManagedWrite => cases ht
  | _ => simp only [tryOp, hargv, htexts]

theorem tryOp_some {argv : List PyVal} (ht : t.isPython = false)
    (hargv : toArgv h t fields = .ok argv) (htexts : texts argv = some argv') :
    tryOp h t fields = runChild h t argv' := by
  cases t with
  | artifactFetch => cases ht
  | fileManagedWrite => cases ht
  | _ => simp only [tryOp, hargv, htexts]

theorem argument_id (ht : t ≠ .packageInstallDeb) (tokens : List PyStr) :
    tokens.map (argument h t) = tokens := by
  have hid : argument h t = id := funext fun s => if_neg ht
  rw [hid, List.map_id]

theorem meets_packages (htyped : typed op = some (t, fields))
    (hfields : validateFields i t fields = .ok ())
    (ht : t = .packageInstall ∨ t = .packageRemove) :
    Meets isPackage h op (packageVerdict isPackage h t fields) (executeOp h op) := by
  obtain ⟨pre, hpre, hargv, hpython, hdeb, hwrite⟩ : ∃ pre, brokerPrefix t = some pre ∧
      (toArgv h t fields = do
        let v ← field "packages" fields
        return pre.map .str ++ (← splat v)) ∧ t.isPython = false ∧ t ≠ .packageInstallDeb ∧
      t ≠ .fileManagedWrite := by
    rcases ht with rfl | rfl
    · exact ⟨["apt-get", "install", "-y"], rfl, rfl, rfl, by decide, by decide⟩
    · exact ⟨["apt-get", "remove", "-y"], rfl, rfl, rfl, by decide, by decide⟩
  have hdeclared : declared t fields = (field? "packages" fields).bind fun v => match v with
      | .str s => some [s]
      | .list xs => texts xs
      | _ => none := by
    rcases ht with rfl | rfl <;> rfl
  cases hfield : field? "packages" fields with
  | none =>
    simp only [field, hfield] at hargv
    rw [packageVerdict, packages, hfield]
    exact meets_raised htyped (tryOp_error hpython hargv)
  | some v =>
    have hvalid := field_valid hfields hfield (by decide) hwrite
    simp only [field, hfield] at hargv
    rw [hfield, Option.bind_some] at hdeclared
    cases v with
    | str s =>
      have htexts : texts (pre.map .str ++ s.codes.map fun c => .str ⟨[c]⟩) =
          some (pre ++ s.codes.map fun c => ⟨[c]⟩) := by
        rw [texts_append]
        have hchars := texts_map (s.codes.map fun c => ⟨[c]⟩)
        rw [List.map_map] at hchars
        rw [show (s.codes.map fun c => PyVal.str ⟨[c]⟩) = s.codes.map (PyVal.str ∘ fun c => ⟨[c]⟩)
          from rfl, hchars, Option.map_some]
      have htry := tryOp_some hpython hargv htexts
      have hsafe := not_option (validateValue_str hvalid)
      rw [packageVerdict, packages, hfield]
      by_cases hlength : s.codes.length = 1
      · -- one character, which is the one argument
        obtain ⟨c, hc⟩ := List.length_eq_one_iff.mp hlength
        have hs : s.codes.map (fun c => (⟨[c]⟩ : PyStr)) = [s] := by
          rw [hc, List.map_singleton, ← hc]
        simp only [hlength, if_true]
        split
        · next htokens =>
          refine meets_child htyped htry hpre hdeclared ?_ fun s' hs' => ?_
          · rw [hs, argument_id hdeb]
          · obtain rfl := List.mem_singleton.mp hs'
            exact ⟨hsafe, htokens _ (List.mem_singleton_self _)⟩
        · next htokens =>
          refine meets_other htyped htry fun hallowed => htokens fun s' hs' => ?_
          obtain ⟨_, tokens, -, htokens', -, hall⟩ := allowed_ran htyped hallowed
          obtain rfl := Option.some.inj (hdeclared.symm.trans htokens')
          exact (hall s' hs').2
      · simp only [hlength, if_false]
        refine meets_other htyped htry fun hallowed => hlength ?_
        obtain ⟨pre', tokens, hpre', htokens', hsplit, -⟩ := allowed_ran htyped hallowed
        obtain rfl := Option.some.inj (hpre.symm.trans hpre')
        obtain rfl := Option.some.inj (hdeclared.symm.trans htokens')
        have hlengths := congrArg List.length (List.append_cancel_left hsplit)
        rw [List.length_map, List.length_map] at hlengths
        exact hlengths
    | list xs =>
      cases hxs : texts xs with
      | none =>
        have hverdict : packageVerdict isPackage h t fields = .spoils := by
          simp only [packageVerdict, packages, hfield, hxs]
        rw [hverdict]
        refine meets_raised htyped (tryOp_none hpython hargv ?_)
        rw [texts_append, hxs, Option.map_none]
      | some tokens =>
        have htry := tryOp_some hpython hargv (by rw [texts_append, hxs, Option.map_some])
        have hdeclared' : declared t fields = some tokens := hdeclared.trans hxs
        have hverdict : packageVerdict isPackage h t fields =
            if ∀ s ∈ tokens, changesKind isPackage t s = false then childVerdict h
              else .spoils := by
          simp only [packageVerdict, packages, hfield, hxs]
        obtain rfl := eq_of_texts hxs
        rw [hverdict]
        split
        · next htokens =>
          refine meets_child htyped htry hpre hdeclared' ?_ fun s hs => ⟨?_, htokens s hs⟩
          · rw [argument_id hdeb]
          · exact not_option (validateValue_str
              (validateValue_list hvalid (List.mem_map_of_mem hs)))
        · next htokens =>
          refine meets_other htyped htry fun hallowed => htokens fun s hs => ?_
          obtain ⟨_, tokens', -, htokens', -, hall⟩ := allowed_ran htyped hallowed
          obtain rfl := Option.some.inj (hdeclared'.symm.trans htokens')
          exact (hall s hs).2
    | tuple xs => cases hvalid
    | dict kvs => cases hvalid
    | _ =>
      rw [packageVerdict, packages, hfield]
      exact meets_raised htyped (tryOp_error hpython hargv)

theorem meets_single (htyped : typed op = some (t, fields))
    (hfields : validateFields i t fields = .ok ()) (hkey : key ≠ "type")
    (hpre : brokerPrefix t = some pre) (hargv : toArgv h t fields = do
      let v ← field key fields
      return pre.map .str ++ [.str (strOf h v)])
    (hdeclared : declared t fields = (textField key fields).map fun s => [s])
    (hpython : t.isPython = false) (hdeb : t ≠ .packageInstallDeb) (hwrite : t ≠ .fileManagedWrite)
    (hkind : ∀ s, changesKind isPackage t s = false) :
    Meets isPackage h op (if (declared t fields).isSome then childVerdict h else .spoils)
      (executeOp h op) := by
  unfold textField at hdeclared
  cases hfield : field? key fields with
  | none =>
    simp only [field, hfield] at hargv
    rw [hfield] at hdeclared
    rw [hdeclared]
    exact meets_raised htyped (tryOp_error hpython hargv)
  | some v =>
    have hvalid := field_valid hfields hfield hkey hwrite
    simp only [field, hfield] at hargv
    rw [hfield, bind_some] at hdeclared
    have htry : tryOp h t fields = runChild h t (pre ++ [strOf h v]) :=
      tryOp_some hpython hargv (by rw [texts_append]; rfl)
    cases v with
    | str s =>
      have hdeclared' : declared t fields = some [s] := hdeclared
      rw [hdeclared']
      refine meets_child htyped htry hpre hdeclared' ?_ fun s' hs' => ?_
      · rw [argument_id hdeb]
        rfl
      · obtain rfl := mem_singleton.mp hs'
        exact ⟨not_option (validateValue_str hvalid), hkind _⟩
    | _ =>
      have hdeclared' : declared t fields = none := hdeclared
      rw [hdeclared']
      refine meets_other htyped htry fun hallowed => ?_
      obtain ⟨_, tokens, -, htokens, -⟩ := allowed_ran htyped hallowed
      cases hdeclared'.symm.trans htokens

theorem meets_group (htyped : typed op = some (.userGroupAdd, fields))
    (hfields : validateFields i .userGroupAdd fields = .ok ()) :
    Meets isPackage h op (if (declared .userGroupAdd fields).isSome then childVerdict h else .spoils)
      (executeOp h op) := by
  have hargv : toArgv h .userGroupAdd fields = do
      let group ← field "group" fields
      let user ← field "user" fields
      return [text "usermod", text "-aG", .str (strOf h group), .str (strOf h user)] := rfl
  have hdeclared : declared .userGroupAdd fields = (textField "group" fields).bind fun group =>
      (textField "user" fields).map fun user => [group, user] := rfl
  unfold textField at hdeclared
  cases hgroup : field? "group" fields with
  | none =>
    simp only [field, hgroup] at hargv
    rw [hgroup] at hdeclared
    rw [hdeclared]
    exact meets_raised htyped (tryOp_error rfl hargv)
  | some group =>
    cases huser : field? "user" fields with
    | none =>
      simp only [field, hgroup, huser] at hargv
      have hnone : declared .userGroupAdd fields = none := by
        rw [hdeclared, hgroup, huser]
        cases group <;> rfl
      rw [hnone]
      exact meets_raised htyped (tryOp_error rfl hargv)
    | some user =>
      have hvalid := field_valid hfields hgroup (by decide) (by decide)
      have hvalid' := field_valid hfields huser (by decide) (by decide)
      simp only [field, hgroup, huser] at hargv
      rw [hgroup, huser, bind_some, bind_some] at hdeclared
      have htry : tryOp h .userGroupAdd fields =
          runChild h .userGroupAdd ["usermod", "-aG", strOf h group, strOf h user] :=
        tryOp_some rfl hargv rfl
      have hother : declared .userGroupAdd fields = none → Meets isPackage h op
          (if (declared .userGroupAdd fields).isSome then childVerdict h else .spoils)
          (executeOp h op) := by
        intro hnone
        rw [hnone]
        refine meets_other htyped htry fun hallowed => ?_
        obtain ⟨_, tokens, -, htokens, -⟩ := allowed_ran htyped hallowed
        cases hnone.symm.trans htokens
      cases group with
      | str g =>
        cases user with
        | str u =>
          have hdeclared' : declared .userGroupAdd fields = some [g, u] := hdeclared
          rw [hdeclared']
          refine meets_child htyped htry rfl hdeclared' rfl fun s hs => ⟨?_, rfl⟩
          rcases mem_cons.mp hs with rfl | hs
          · exact not_option (validateValue_str hvalid)
          · obtain rfl := mem_singleton.mp hs
            exact not_option (validateValue_str hvalid')
        | _ => exact hother hdeclared
      | _ => exact hother hdeclared

theorem resolveArtifact_other (hvalid : validateValue i key v = .ok ()) (hv : ∀ s, v ≠ .str s) :
    resolveArtifact h v = .error (.raised "TypeError") := by
  cases v with
  | str s => exact absurd rfl (hv s)
  | list xs =>
    have hnot : ∀ s, safeToken s = false → xs.any (isText s) = false := by
      intro s hs
      rw [List.any_eq_false]
      intro x hx htext
      cases x with
      | str t =>
        obtain rfl : t = s := of_decide_eq_true htext
        cases hs.symm.trans (validateValue_str (validateValue_list hvalid hx))
      | _ => cases htext
    have hne : xs ≠ [] := by
      rintro rfl
      cases hvalid
    have hguard : ¬ (xs.any (isText "/") = true ∨ xs.any (isText "..") = true ∨ xs = []) := by
      rintro (hslash | hdots | hnil)
      · cases (hnot "/" (by decide)).symm.trans hslash
      · cases (hnot ".." (by decide)).symm.trans hdots
      · exact hne hnil
    show (if _ then _ else _) = _
    rw [if_neg hguard]
  | tuple xs => cases hvalid
  | dict kvs => cases hvalid
  | object tag => cases hvalid
  | _ => rfl

theorem meets_artifact (htyped : typed op = some (.packageInstallDeb, fields))
    (hfields : validateFields i .packageInstallDeb fields = .ok ()) :
    Meets isPackage h op (artifactVerdict h fields) (executeOp h op) := by
  have hargv : toArgv h .packageInstallDeb fields = do
      let v ← field "artifact" fields
      return [text "dpkg", text "-i", .str (← resolveArtifact h v)] := rfl
  unfold artifactVerdict textField
  cases hfield : field? "artifact" fields with
  | none =>
    simp only [field, hfield] at hargv
    exact meets_raised htyped (tryOp_error rfl hargv)
  | some v =>
    have hvalid := field_valid hfields hfield (by decide) (by decide)
    simp only [field, hfield] at hargv
    have hraised : (∀ s, v ≠ .str s) → Meets isPackage h op .spoils (executeOp h op) := by
      intro hv
      refine meets_raised htyped (tryOp_error rfl (e := .raised "TypeError") ?_)
      rw [hargv]
      show (resolveArtifact h v >>= _) = _
      rw [resolveArtifact_other hvalid hv]
      rfl
    cases v with
    | str name =>
      rw [bind_some]
      show Meets isPackage h op (if _ then _ else _) _
      split
      · next hunsafe =>
        have hrefused : toArgv h .packageInstallDeb fields =
            .error (.refused (.artifactName (.str name))) := by
          rw [hargv]
          show (resolveArtifact h (.str name) >>= _) = _
          rw [show resolveArtifact h (.str name) = _ from if_pos hunsafe]
          rfl
        exact meets_refused htyped (tryOp_error rfl hrefused) trivial
      · next hsafe =>
        have hresolve : resolveArtifact h (.str name) = match h.artifactExists name with
            | none => .error (.raised "OSError")
            | some false => .error (.refused (.notFetched name))
            | some true => .ok (h.artifactPath name) := if_neg hsafe
        cases hexists : h.artifactExists name with
        | none =>
          simp only [hexists] at hresolve
          refine meets_raised htyped (tryOp_error rfl (e := .raised "OSError") ?_)
          rw [hargv]
          show (resolveArtifact h (.str name) >>= _) = _
          rw [hresolve]
          rfl
        | some there =>
          cases there with
          | false =>
            simp only [hexists] at hresolve
            have hrefused : toArgv h .packageInstallDeb fields =
                .error (.refused (.notFetched name)) := by
              rw [hargv]
              show (resolveArtifact h (.str name) >>= _) = _
              rw [hresolve]
              rfl
            exact meets_refused htyped (tryOp_error rfl hrefused) trivial
          | true =>
            simp only [hexists] at hresolve
            have hargv' : toArgv h .packageInstallDeb fields =
                .ok [text "dpkg", text "-i", .str (h.artifactPath name)] := by
              rw [hargv]
              show (resolveArtifact h (.str name) >>= _) = _
              rw [hresolve]
              rfl
            have htry : tryOp h .packageInstallDeb fields =
                runChild h .packageInstallDeb ["dpkg", "-i", h.artifactPath name] :=
              tryOp_some rfl hargv' rfl
            have hdeclared : declared .packageInstallDeb fields = some [name] := by
              show (textField "artifact" fields).map _ = _
              rw [textField, hfield]
              rfl
            refine meets_child htyped htry rfl hdeclared rfl fun s hs => ?_
            obtain rfl := mem_singleton.mp hs
            exact ⟨not_option (validateValue_str hvalid), rfl⟩
    | _ => exact hraised fun s hs => by cases hs

theorem allowed_python (htyped : typed op = some (t, fields)) (ht : t.isPython = true) :
    Allowed isPackage h op (some .python) := by
  refine ⟨t, fields, htyped, ?_⟩
  unfold OpType.isPython at ht
  rw [Bool.or_eq_true] at ht
  exact ht.imp of_decide_eq_true of_decide_eq_true

theorem meets_performed (htyped : typed op = some (t, fields)) (ht : t.isPython = true)
    {result : Result} (htry : tryOp h t fields = (some .python, .ok result))
    (hresult : result.failed = false) : Meets isPackage h op .succeeds (executeOp h op) := by
  rw [executeOp_eq htyped, htry]
  exact ⟨.python, result, rfl, hresult, allowed_python htyped ht⟩

theorem meets_fetch (htyped : typed op = some (.artifactFetch, fields)) :
    Meets isPackage h op (fetchVerdict h fields) (executeOp h op) := by
  have hallowed : Allowed isPackage h op (some .python) := allowed_python htyped rfl
  have htry : tryOp h .artifactFetch fields = (some .python, artifactFetch h fields) := rfl
  unfold artifactFetch at htry
  unfold fetchVerdict
  dsimp only at htry ⊢
  generalize strOf h (orElse (orElse ((PyVal.dict fields).get "name")
    ((PyVal.dict fields).get "source")) (text "")) = name at htry ⊢
  generalize strOf h ((PyVal.dict fields).getD "url" (text "")) = url at htry ⊢
  generalize strOf h ((PyVal.dict fields).getD "sha256" (text "")) = expected at htry ⊢
  -- the two are the same chain of conditions
  by_cases hname : name.codes = [] ∨ hasSub name "/" = true ∨ hasSub name ".." = true
  · rw [if_pos (by tauto)]
    rw [if_pos hname] at htry
    exact meets_refused htyped htry hallowed
  rw [if_neg hname] at htry
  by_cases hurl : url.codes = []
  · rw [if_pos (by tauto)]
    rw [if_pos hurl] at htry
    exact meets_refused htyped htry hallowed
  rw [if_neg hurl] at htry
  by_cases hexpected : expected.codes = []
  · rw [if_pos (by tauto)]
    rw [if_pos hexpected] at htry
    exact meets_refused htyped htry hallowed
  rw [if_neg hexpected] at htry
  rw [if_neg (by tauto)]
  cases hfetch : h.fetch with
  | failed error =>
    simp only [hfetch] at htry
    rw [executeOp_eq htyped, htry]
    exact ⟨_, _, rfl, rfl, hallowed⟩
  | raised exception =>
    simp only [hfetch] at htry
    exact meets_raised htyped htry
  | blob actual =>
    simp only [hfetch] at htry
    show Meets isPackage h op (if _ then _ else _) _
    split
    · next hdigest =>
      rw [if_pos hdigest] at htry
      exact meets_refused htyped htry hallowed
    · next hdigest =>
      rw [if_neg hdigest] at htry
      cases hstored : h.stored with
      | true =>
        rw [hstored, if_pos rfl] at htry
        exact meets_performed htyped rfl htry rfl
      | false =>
        rw [hstored, if_neg Bool.false_ne_true] at htry
        exact meets_raised htyped htry

theorem meets_write (htyped : typed op = some (.fileManagedWrite, fields)) :
    Meets isPackage h op (writeVerdict h fields) (executeOp h op) := by
  have hallowed : Allowed isPackage h op (some .python) := allowed_python htyped rfl
  have htry : tryOp h .fileManagedWrite fields = (some .python, managedWrite h fields) := rfl
  unfold managedWrite at htry
  unfold writeVerdict
  dsimp only at htry ⊢
  generalize strOf h ((PyVal.dict fields).getD "path" (text "")) = path at htry ⊢
  cases hmode : octal (strOf h ((PyVal.dict fields).getD "mode" (text "0644"))) with
  | none =>
    simp only [hmode] at htry
    exact meets_raised htyped htry
  | some mode =>
    simp only [hmode] at htry
    show Meets isPackage h op (if _ then _ else _) _
    by_cases hpath : path.codes.head? ≠ some 47
    · rw [if_pos hpath] at htry ⊢
      exact meets_refused htyped htry hallowed
    rw [if_neg hpath] at htry ⊢
    cases hreal : h.realpath path with
    | none =>
      simp only [hreal] at htry
      exact meets_raised htyped htry
    | some resolved =>
      obtain ⟨resolved, managed⟩ := resolved
      cases managed with
      | false =>
        simp only [hreal] at htry
        exact meets_refused htyped htry hallowed
      | true =>
        simp only [hreal] at htry
        show Meets isPackage h op (if _ then _ else if _ then _ else _) _
        rw [if_neg (by decide)]
        cases hstored : h.stored with
        | false =>
          rw [hstored, if_pos rfl] at htry
          rw [if_neg fun hdone => Bool.false_ne_true hdone.1]
          exact meets_raised htyped htry
        | true =>
          rw [hstored, if_neg (by decide)] at htry
          by_cases hint : isCInt mode = true
          · rw [if_pos hint] at htry
            rw [if_pos ⟨rfl, hint⟩]
            exact meets_performed htyped rfl htry rfl
          · rw [if_neg hint] at htry
            rw [if_neg fun hdone => hint hdone.2]
            exact meets_raised htyped htry

theorem executeOp_meets (hvalid : validateOperation i op = .ok ()) :
    Meets isPackage h op (verdict isPackage h op) (executeOp h op) := by
  obtain ⟨t, fields, htyped, hfields⟩ := typed_of_valid hvalid
  have hchild : ∀ {argv : List PyStr}, tryOp h t fields = runChild h t argv →
      brokerPrefix t = some argv → declared t fields = some [] →
      Meets isPackage h op (childVerdict h) (executeOp h op) := by
    intro argv htry hpre hdeclared
    refine meets_child htyped htry hpre hdeclared (append_nil argv).symm fun s hs => ?_
    cases hs
  have hunmapped : toArgv h t fields = .error (.refused (.unmapped t)) → t.isPython = false →
      Meets isPackage h op .fails (executeOp h op) := fun hargv ht =>
    meets_refused htyped (tryOp_error ht hargv) trivial
  unfold verdict
  rw [htyped]
  cases t with
  | packageInstall => exact meets_packages htyped hfields (Or.inl rfl)
  | packageRemove => exact meets_packages htyped hfields (Or.inr rfl)
  | packageUpdate => exact hchild rfl rfl rfl
  | udevReload => exact hchild rfl rfl rfl
  | packageInstallDeb => exact meets_artifact htyped hfields
  | repositoryEnable =>
    exact meets_single htyped hfields (by decide : PyStr.ofString "repository" ≠ "type") rfl rfl rfl
      rfl (by decide) (by decide) fun _ => rfl
  | systemdEnable =>
    exact meets_single htyped hfields (by decide : PyStr.ofString "unit" ≠ "type") rfl rfl rfl rfl
      (by decide) (by decide) fun _ => rfl
  | systemdStart =>
    exact meets_single htyped hfields (by decide : PyStr.ofString "unit" ≠ "type") rfl rfl rfl rfl
      (by decide) (by decide) fun _ => rfl
  | systemdRestart =>
    exact meets_single htyped hfields (by decide : PyStr.ofString "unit" ≠ "type") rfl rfl rfl rfl
      (by decide) (by decide) fun _ => rfl
  | userGroupAdd => exact meets_group htyped hfields
  | artifactFetch => exact meets_fetch htyped
  | fileManagedWrite => exact meets_write htyped
  | _ => exact hunmapped rfl rfl

/-! ### All operations -/

/-- The run of `executeOps` is safe. -/
def Run.IsSafe (isPackage : PyStr → Bool) (host : Nat → Host) (i : Nat) (ops : List PyVal)
    (run : Run) : Prop :=
  ∃ results, run.results = .ok results ∧ Safe isPackage host i ops run.effects results

theorem Safe.cons {effects : List (Option Effect)} {results : List Result}
    (hsafe : Safe isPackage host i (op :: ops) effects results) :
    (∃ effect result, effects = [effect] ∧ results = [result] ∧
      Allowed isPackage (host i) op effect ∧ result.failed = true) ∨
    ∃ effect effects' result results', effects = some effect :: effects' ∧
      results = result :: results' ∧ Allowed isPackage (host i) op (some effect) ∧
      result.failed = false ∧ Safe isPackage host (i + 1) ops effects' results' := by
  cases hsafe with
  | failed hallowed hfailed => exact Or.inl ⟨_, _, rfl, rfl, hallowed, hfailed⟩
  | next hallowed hresult hrest =>
    exact Or.inr ⟨_, _, _, _, rfl, rfl, hallowed, hresult, hrest⟩

theorem executeOps_isSafe_iff (hvalid : validateOperations i ops = .ok ()) :
    (executeOps host i ops).IsSafe isPackage host i ops ↔ Clean isPackage host i ops := by
  induction ops generalizing i with
  | nil => exact ⟨fun _ => trivial, fun _ => ⟨[], rfl, .done⟩⟩
  | cons op ops ih =>
    obtain ⟨_, hop, hops⟩ := bind_ok hvalid
    have hmeets : Meets isPackage (host i) op (verdict isPackage (host i) op)
        (executeOp (host i) op) := executeOp_meets hop
    cases hverdict : verdict isPackage (host i) op with
    | succeeds =>
      rw [hverdict] at hmeets
      obtain ⟨effect, result, heq, hresult, hallowed⟩ := hmeets
      have hrun : executeOps host i (op :: ops) =
          ⟨some effect :: (executeOps host (i + 1) ops).effects,
            (executeOps host (i + 1) ops).results.map (result :: ·)⟩ := by
        simp only [executeOps, heq, hresult, Bool.false_eq_true, if_false]
      constructor
      · rintro ⟨results, hresults, hsafe⟩
        refine ⟨by rw [hverdict]; decide, fun _ => (ih hops).mp ?_⟩
        rw [hrun] at hresults hsafe
        cases hrest : (executeOps host (i + 1) ops).results with
        | error e =>
          rw [hrest] at hresults
          cases hresults
        | ok rest =>
          rw [hrest] at hresults
          obtain rfl : result :: rest = results := Except.ok.inj hresults
          obtain ⟨_, _, -, hone, -, hfailed⟩ | ⟨_, _, _, _, heffects, hone, -, -, hsafe'⟩ :=
            hsafe.cons
          · -- the loop goes on after this result
            obtain ⟨rfl, -⟩ := List.cons.inj hone
            cases hresult.symm.trans hfailed
          · obtain ⟨-, rfl⟩ := List.cons.inj hone
            obtain ⟨-, rfl⟩ := List.cons.inj heffects
            exact ⟨_, hrest, hsafe'⟩
      · rintro ⟨-, hclean⟩
        obtain ⟨results, hresults, hsafe⟩ := (ih hops).mpr (hclean hverdict)
        rw [hrun]
        exact ⟨result :: results, by rw [hresults]; rfl, .next hallowed hresult hsafe⟩
    | fails =>
      rw [hverdict] at hmeets
      obtain ⟨effect, result, heq, hresult, hallowed⟩ := hmeets
      have hrun : executeOps host i (op :: ops) = ⟨[effect], .ok [result]⟩ := by
        simp only [executeOps, heq, hresult, if_true]
      refine ⟨fun _ => ⟨by rw [hverdict]; decide, fun hsucceeds => ?_⟩, fun _ => ?_⟩
      · cases hverdict.symm.trans hsucceeds
      · rw [hrun]
        exact ⟨[result], rfl, .failed hallowed hresult⟩
    | spoils =>
      rw [hverdict] at hmeets
      refine ⟨fun hsafe => ?_, fun hclean => absurd hverdict hclean.1⟩
      obtain ⟨results, hresults, hsafe⟩ := hsafe
      cases heq : executeOp (host i) op with
      | mk effect ending =>
        cases ending with
        | error e =>
          simp only [executeOps, heq] at hresults
          cases hresults
        | ok result =>
          refine absurd ?_ (hmeets effect result heq)
          have heffects : ∃ effects, (executeOps host i (op :: ops)).effects = effect :: effects := by
            cases hfailed : result.failed with
            | true =>
              simp only [executeOps, heq, hfailed, if_true]
              exact ⟨[], rfl⟩
            | false =>
              simp only [executeOps, heq, hfailed, Bool.false_eq_true, if_false]
              exact ⟨_, rfl⟩
          obtain ⟨effects, heffects⟩ := heffects
          rw [heffects] at hsafe
          obtain ⟨_, _, hone, -, hallowed, -⟩ | ⟨_, _, _, _, hone, -, hallowed, -, -⟩ := hsafe.cons
          · rw [(List.cons.inj hone).1]
            exact hallowed
          · rw [(List.cons.inj hone).1]
            exact hallowed

theorem validatePlan_operations (h : validatePlan plan = .ok ()) :
    validateOperations 0 (operationsOf plan) = .ok () := by
  unfold validatePlan at h
  split at h
  · cases h
  · split at h
    · next op ops hops =>
      rw [operationsOf, hops]
      exact h
    · cases h

def SafelyExecuted (isPackage : PyStr → Bool) (planHash : PyVal → PyStr) (host : Nat → Host)
    (plan approval : PyVal) : Prop :=
  ∃ run, execute planHash host plan approval = .started run ∧
    run.IsSafe isPackage host 0 (operationsOf plan)

theorem safelyExecuted_iff {planHash : PyVal → PyStr} (hplan : validatePlan plan = .ok ())
    (happroval : requireApproval planHash plan approval = true) :
    SafelyExecuted isPackage planHash host plan approval ↔
      (executeOps host 0 (operationsOf plan)).IsSafe isPackage host 0 (operationsOf plan) := by
  have hexecute : execute planHash host plan approval =
      .started (executeOps host 0 (operationsOf plan)) := by
    simp only [execute, hplan, happroval, if_true]
  constructor
  · rintro ⟨run, hrun, hsafe⟩
    obtain rfl := Outcome.started.inj (hexecute.symm.trans hrun)
    exact hsafe
  · exact fun hsafe => ⟨_, hexecute, hsafe⟩

/-- **Execution of a valid plan with its approval is safe if and only if no operation that is
reached runs something else or raises.** -/
theorem execute_safe_iff (isPackage : PyStr → Bool) (planHash : PyVal → PyStr)
    (host : Nat → Host) {plan approval : PyVal} (hplan : validatePlan plan = .ok ())
    (happroval : requireApproval planHash plan approval = true) :
    SafelyExecuted isPackage planHash host plan approval ↔
      Clean isPackage host 0 (operationsOf plan) :=
  (safelyExecuted_iff hplan happroval).trans
    (executeOps_isSafe_iff (validatePlan_operations hplan))

/-! ### A package that is removed -/

def quietHost : Host where
  strOf _ := ⟨[]⟩
  child := .exited 0 ⟨[]⟩
  artifactPath s := s
  artifactExists _ := some true
  fetch := .failed "unreachable"
  realpath _ := none
  stored := true

/-- A plan that installs `vim`, with this text after it. -/
def installPlan (suffix : String) : PyVal :=
  .dict [("operations", .list [.dict [("type", text "package.install"),
    ("packages", .list [text ("vim" ++ suffix)])]])]

def installApproval : PyVal := .dict [("approved", .bool true), ("plan_hash", text "sha256")]

/-- The only package is `vim`. -/
def isVim (s : PyStr) : Bool := s = PyStr.ofString "vim"

theorem execute_safe_vim :
    SafelyExecuted isVim (fun _ => "sha256") (fun _ => quietHost) (installPlan "") installApproval :=
  (execute_safe_iff isVim (fun _ => "sha256") (fun _ => quietHost) rfl rfl).mpr
    ⟨by decide, fun _ => trivial⟩

/-- `apt-get install -y vim-` removes `vim`. -/
theorem install_removes :
    validatePlan (installPlan "-") = .ok () ∧
      requireApproval (fun _ => "sha256") (installPlan "-") installApproval = true ∧
      ¬ SafelyExecuted isVim (fun _ => "sha256") (fun _ => quietHost) (installPlan "-")
        installApproval := by
  have hplan : validatePlan (installPlan "-") = .ok () := by rfl
  have happroval : requireApproval (fun _ => "sha256") (installPlan "-") installApproval = true := by
    rfl
  refine ⟨hplan, happroval, fun hsafe => ?_⟩
  have hclean := (executeOps_isSafe_iff (validatePlan_operations hplan)).mp
    ((safelyExecuted_iff hplan happroval).mp hsafe)
  exact hclean.1 (by decide)

end Rosclaw.HostOps
