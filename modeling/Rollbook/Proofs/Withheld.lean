import Mathlib
import Rollbook.Program
import Rollbook.Proofs.OrderedTree

/-!
# Rollbook — variables that are no settings

The password never reaches the settings. It stands in the environment among the variables that are
settings, so it must be dropped by its name alone, before its text is read as a value: a text may
denote a dictionary, hold an invalid setting, or be no value at all and spoil the whole layer. The
same holds of the variable that names the configuration file.

That nothing of a text gets through is seen only by comparing two environments. The variables are
laid over each other one by one, and the step of a withheld variable is no step, so an environment
has the layer of what it shows, and two that show the same have the same settings.

* `Environment.path?_eq_some_iff` — which names are settings: none is dropped but the two.
* `Environment.path?_of_withheld` — a withheld name gives no path, in whatever case it is written.
* `Environment.settings?_shown`   — the layer is that of the variables that are shown.
* `Environment.shown_eq_iff`      — environments show the same if they agree on all other names.
* `Settings.load_eq_of_shown_eq`  — settings, their check and the run, from what is shown.
-/

namespace Rollbook

-- ---------------------------------------------------------------------------
-- Names in any case
-- ---------------------------------------------------------------------------

namespace Text

theorem isBlank_of_graphic {c : Char} (hlow : 33 ≤ c.toNat) (hhigh : c.toNat ≤ 126) :
    isBlank c = false := by
  rw [Bool.eq_false_iff]
  simp only [isBlank, ne_eq, Bool.or_eq_true, Bool.and_eq_true, decide_eq_true_eq, beq_iff_eq]
  omega

/-- White space has no case. -/
theorem isBlank_toLower (c : Char) : isBlank c.toLower = isBlank c := by
  by_cases hupper : c.isUpper
  · obtain ⟨hlow, hhigh⟩ : 65 ≤ c.toNat ∧ c.toNat ≤ 90 := of_decide_eq_true hupper
    have hlower : (Char.ofNat (c.toNat + 32)).toNat = c.toNat + 32 := by
      rw [Char.toNat_ofNat, if_pos (by unfold Nat.isValidChar; omega)]
    rw [Char.toLower_eq_of_isUpper hupper, isBlank_of_graphic (by omega) (by omega),
      isBlank_of_graphic (by omega) (by omega)]
  · rw [Char.toLower_eq_of_not_isUpper hupper]

theorem any_isBlank_toLower (cs : List Char) :
    (cs.map Char.toLower).any isBlank = cs.any isBlank := by
  rw [List.any_map]
  exact congrArg cs.any (funext isBlank_toLower)

/-- Nothing is stripped of a list without an element of the class. -/
theorem stripBy_eq_self {p : Char → Bool} {cs : List Char} (h : cs.any p = false) :
    stripBy p cs = cs := by
  have hfront : ∀ ds : List Char, ds.any p = false → ds.dropWhile p = ds := by
    intro ds hds
    cases ds with
    | nil => rfl
    | cons d rest =>
      rw [List.any_cons, Bool.or_eq_false_iff] at hds
      rw [List.dropWhile_cons, hds.1]
      rfl
  unfold stripBy
  rw [hfront cs h, hfront cs.reverse (List.any_reverse.trans h), List.reverse_reverse]

end Text

namespace Environment

/-- The name of a variable that is no setting, whatever the case of its letters. -/
def Withheld (name : String) : Prop :=
  name.toList.map Char.toLower = configVariable.toList.map Char.toLower ∨
    name.toList.map Char.toLower = passwordVariable.toList.map Char.toLower

instance : DecidablePred Withheld := fun _ => inferInstanceAs (Decidable (_ ∨ _))

variable {env env' : Environment} {name : String} {tree : Tree}

/-- Behind the prefix, two names are withheld, in any case of their characters. -/
theorem withheld_iff {rest : List Char} (h : name.toList.map Char.toLower = lead ++ rest) :
    Withheld name ↔ rest = "config".toList ∨ rest = "db_password".toList := by
  have hconfig : configVariable.toList.map Char.toLower = lead ++ "config".toList := by decide
  have hpassword : passwordVariable.toList.map Char.toLower = lead ++ "db_password".toList := by
    decide
  unfold Withheld
  rw [h, hconfig, hpassword, List.append_cancel_left_eq, List.append_cancel_left_eq]

/-- A withheld name has no white space in it, so no part of it is stripped. -/
theorem any_isBlank_of_withheld (h : Withheld name) : name.toList.any Text.isBlank = false := by
  rw [← Text.any_isBlank_toLower]
  rcases h with h | h
  · rw [h]
    decide
  · rw [h]
    decide

/-- **The names that are settings,** of those without white space: all that have the lead, leave no
key empty and are not withheld. -/
theorem path?_eq_some_iff (hblank : name.toList.any Text.isBlank = false) {path : List String} :
    path? name = some path ↔ ¬Withheld name ∧
      ∃ rest, name.toList.map Char.toLower = lead ++ rest ∧ [] ∉ segments rest ∧
        path = (segments rest).map String.ofList := by
  -- the name has no white space, so none is stripped of what follows the lead
  have hrest : ∀ rest, name.toList.map Char.toLower = lead ++ rest →
      Text.stripBy Text.isBlank rest = rest := by
    intro rest hname
    rw [← Text.any_isBlank_toLower, hname, List.any_append, Bool.or_eq_false_iff] at hblank
    exact Text.stripBy_eq_self hblank.2
  have hempty : ∀ keys : List (List Char), keys.any List.isEmpty = true ↔ [] ∈ keys := by
    intro keys
    simp only [List.any_eq_true, List.isEmpty_iff, exists_eq_right]
  unfold path?
  rw [Text.stripBy_eq_self hblank, Option.bind_eq_bind, Option.bind_eq_some_iff]
  constructor
  · rintro ⟨rest, hafter, hpath⟩
    have hname := Text.after?_eq_some_iff.1 hafter
    rw [hrest rest hname] at hpath
    split at hpath
    · cases hpath
    · next hshown =>
      dsimp only at hpath
      split at hpath
      · cases hpath
      · next hkeys =>
        refine ⟨mt (withheld_iff hname).1 hshown, rest, hname, mt (hempty _).2 hkeys, ?_⟩
        exact (Option.some.inj hpath).symm
  · rintro ⟨hshown, rest, hname, hkeys, rfl⟩
    refine ⟨rest, Text.after?_eq_some_iff.2 hname, ?_⟩
    rw [if_neg (mt (withheld_iff hname).2 hshown), hrest rest hname]
    exact if_neg (mt (hempty _).1 hkeys)

/-- **A withheld variable gives no path.** -/
theorem path?_of_withheld (h : Withheld name) : path? name = none := by
  rw [Option.eq_none_iff_forall_ne_some]
  intro path hpath
  exact ((path?_eq_some_iff (any_isBlank_of_withheld h)).1 hpath).1 h

-- ---------------------------------------------------------------------------
-- What is shown
-- ---------------------------------------------------------------------------

/-- The variables that are not withheld. -/
def shown (env : Environment) : Environment := env.filter fun v => ¬Withheld v.1

/-- What is shown of the first variable: nothing if its name is withheld, else itself. -/
theorem shown_cons (name text : String) (rest : Environment) :
    shown ((name, text) :: rest) =
      if Withheld name then rest.shown else (name, text) :: rest.shown := by
  unfold shown
  by_cases h : Withheld name
  · simp [h]
  · simp [h]

/-- Layering the variables that are shown is layering all of them. -/
theorem layOver?_shown (tree : Tree) (env : Environment) :
    env.shown.layOver? tree = env.layOver? tree := by
  induction env generalizing tree with
  | nil => rfl
  | cons v rest ih =>
    obtain ⟨name, text⟩ := v
    rw [shown_cons, layOver?_cons]
    by_cases hname : Withheld name
    · -- a withheld variable has no path, so laying it over is no step
      rw [if_pos hname, path?_of_withheld hname]
      exact ih tree
    · rw [if_neg hname, layOver?_cons]
      split
      · exact congrArg _ (funext fun value => ih _)
      · exact ih tree

/-- **The settings in the environment are those of the variables that are shown.** -/
theorem settings?_shown (env : Environment) : env.shown.settings? = env.settings? :=
  layOver?_shown (.dict []) env

/-- A withheld name has no value among what is shown, and the others keep theirs. -/
theorem value?_shown (env : Environment) (name : String) :
    env.shown.value? name = if Withheld name then none else env.value? name := by
  induction env with
  | nil => exact (ite_self none).symm
  | cons v rest ih =>
    obtain ⟨n, text⟩ := v
    unfold value? at ih ⊢
    rw [shown_cons, List.lookup_cons]
    by_cases heq : name = n
    · subst heq
      by_cases hname : Withheld name
      · -- the name may occur again further on, where it is withheld as well
        rw [if_pos hname, ih, if_pos hname, if_pos hname]
      · rw [if_neg hname, if_neg hname, List.lookup_cons, beq_self_eq_true]
    · rw [beq_eq_false_iff_ne.2 heq, ← ih]
      by_cases hn : Withheld n
      · rw [if_pos hn]
      · rw [if_neg hn, List.lookup_cons, beq_eq_false_iff_ne.2 heq]

/-- Two environments show the same variables exactly if they agree on every name that is not
withheld. -/
theorem shown_eq_iff (h : Entries.Ordered env) (h' : Entries.Ordered env') :
    env.shown = env'.shown ↔ ∀ name, ¬Withheld name → env.value? name = env'.value? name := by
  refine ⟨fun heq name hname => ?_, fun hagree => ?_⟩
  · have hvalue := congrArg (·.value? name) heq
    simpa only [value?_shown, if_neg hname] using hvalue
  · refine Entries.eq_of_lookup (h.filter _) (h'.filter _) fun name => ?_
    have hleft := value?_shown env name
    have hright := value?_shown env' name
    by_cases hname : Withheld name
    · rw [if_pos hname] at hleft hright
      exact hleft.trans hright.symm
    · rw [if_neg hname] at hleft hright
      exact hleft.trans ((hagree name hname).trans hright.symm)

end Environment

namespace Settings

open Environment

variable {env env' : Environment}

/-- **What is withheld plays no part.** Environments that differ in withheld names alone give the
same settings or the same error, and the same verdict on them. The program, too, does the same, if
it only validates or finds the same password. -/
theorem load_eq_of_shown_eq (h : env.shown = env'.shown) (content : FileContent) :
    load (.ofContent content) env = load (.ofContent content) env' ∧
    (load (.ofContent content) env).map check = (load (.ofContent content) env').map check ∧
    ∀ options password,
      options.validate = true ∨ Secret.load options.passwordFile password env =
        Secret.load options.passwordFile password env' →
      Program.runWith options env content password =
        Program.runWith options env' content password := by
  have hlayer : env.settings? = env'.settings? := by
    rw [← settings?_shown env, h, settings?_shown env']
  have hload : load (.ofContent content) env = load (.ofContent content) env' := by
    unfold load
    rw [hlayer]
  refine ⟨hload, congrArg _ hload, fun options password hsecret => ?_⟩
  unfold Program.runWith
  rw [hload]
  rcases hsecret with hvalidate | hsecret
  · -- a run that only validates ends before it looks for a password
    rw [hvalidate]
    rfl
  · rw [hsecret]

/-- The address of a server, and a password that reads as a dictionary with a key that no section
has. -/
def dictionaryPassword : Environment :=
  [("CAMPUS_AUTH_CONFIG", "school.yaml"), ("CAMPUS_AUTH_DATABASE__HOST", "db.replica"),
    ("CAMPUS_AUTH_DB_PASSWORD", "\x7bdatabase=\x7bpassword=hunter2\x7d\x7d")]

/-- The address of a server, and a password that cannot be read as a value. -/
def spoiledPassword : Environment :=
  [("CAMPUS_AUTH_DATABASE__HOST", "db.replica"), ("Campus_Auth_Db_Password", "\x22é\\n\x22")]

/-- The layer of an environment whose password could not be read as a value: it is not
read as one. -/
theorem settings?_spoiledPassword : spoiledPassword.settings? =
    some (.dict [("database", .dict [("host", .text "db.replica")])]) := by
  have hhost : path? "CAMPUS_AUTH_DATABASE__HOST" = some ["database", "host"] := by
    decide +kernel
  have hpassword : path? "Campus_Auth_Db_Password" = none := by decide +kernel
  have hreplica : Inline.read? "db.replica" = some (.text "db.replica") := by cbv
  rw [settings?_eq, spoiledPassword]
  simp only [layOver?_cons, layOver?_nil, hhost, hpassword, hreplica, Option.bind_some]
  refine congrArg some ?_
  cbv

/-- Neither password is seen, though the one would be an unknown key and the other no value. -/
theorem load_eq_spoiledPassword :
    dictionaryPassword.shown = spoiledPassword.shown ∧
    Inline.read? "\x7bdatabase=\x7bpassword=hunter2\x7d\x7d" =
      some (.dict [("database", .dict [("password", .text "hunter2")])]) ∧
    Inline.read? "\x22é\\n\x22" = none ∧
    load (.ofContent .missing) dictionaryPassword =
      .ok { database := { host := "db.replica" } } ∧
    Program.runWith ⟨"config.yaml", true, none⟩ dictionaryPassword .missing .missing =
      .exit 0 "Configuration is valid.\n" "" := by
  have hshown : dictionaryPassword.shown = spoiledPassword.shown := by decide +kernel
  obtain ⟨hload, -, hrun⟩ := load_eq_of_shown_eq hshown .missing
  have hloaded : load (.ofContent .missing) spoiledPassword =
      .ok { database := { host := "db.replica" } } := by
    unfold load
    rw [settings?_spoiledPassword]
    cbv
  refine ⟨hshown, by cbv, by cbv, hload.trans hloaded, ?_⟩
  rw [hrun ⟨"config.yaml", true, none⟩ .missing (.inl rfl), Program.runWith, hloaded]
  cbv

end Settings

end Rollbook
