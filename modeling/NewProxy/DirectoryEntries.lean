import NewProxy.Directory
import NewProxy.LeaseBook

/-!
# Whose entries stand in the reverse NAT directory

A worker writes its own entries only, so what it has published can be followed
without looking at the other workers: `Lists` says that every binding of the worker
has its entry, `Backed` that the entries of a kind of identifier belong to bindings,
and `Apart` that the entries of the others are as they were.
-/
namespace NewProxy

/-- The key a binding is published under. -/
abbrev NatBinding.returnKey (binding : NatBinding) : ReverseNatKey :=
  .fromTranslatedFlow binding.translated

namespace ReverseNatDirectory

open FlowWorkerState (without)

/-- Retires the entries of worker `w` for the listed bindings in turn. -/
def retireAll (w : ℕ) (entries : List (SessionId × NatBinding)) (directory : ReverseNatDirectory) :
    ReverseNatDirectory :=
  entries.foldl (fun directory entry => directory.retire entry.2 ⟨w, entry.1⟩) directory

def Lists (w : ℕ) (bindings : SessionId → Option NatBinding) (directory : ReverseNatDirectory) :
    Prop :=
  ∀ id binding, bindings id = some binding →
    directory.entries.get binding.returnKey = some ⟨w, id⟩

def Backed (w : ℕ) (kind : SessionId → Prop) (bindings : SessionId → Option NatBinding)
    (directory : ReverseNatDirectory) : Prop :=
  ∀ key id, kind id → directory.entries.get key = some ⟨w, id⟩ →
    ∃ binding, bindings id = some binding ∧ key = binding.returnKey

def Apart (w : ℕ) (start directory : ReverseNatDirectory) : Prop :=
  ∀ key locator, locator.flowWorkerId ≠ w →
    (directory.entries.get key = some locator ↔ start.entries.get key = some locator)

/-- The keys of the entries of `w` are of `A`. -/
def Within (w : ℕ) (A : ReverseNatKey → Prop) (directory : ReverseNatDirectory) : Prop :=
  ∀ key id, directory.entries.get key = some ⟨w, id⟩ → A key

/-- What a successful publication does. -/
structure Publishes (binding : NatBinding) (locator : SessionLocator)
    (before after : ReverseNatDirectory) : Prop where
  free : ∀ other, before.entries.get binding.returnKey = some other → other = locator
  get : ∀ key, after.entries.get key =
    if key = binding.returnKey then some locator else before.entries.get key

variable {w : ℕ} {kind : SessionId → Prop} {bindings : SessionId → Option NatBinding}
  {start directory directory' : ReverseNatDirectory} {binding : NatBinding} {id : SessionId}
  {locator : SessionLocator}

theorem publish_cases (binding : NatBinding) (locator : SessionLocator)
    (directory : ReverseNatDirectory) :
    (∃ directory', (publish binding locator).run directory = (.ok (), directory') ∧
      Publishes binding locator directory directory') ∨
    ∃ e other, (publish binding locator).run directory = (Outcome.fail e, directory) ∧
      directory.entries.get binding.returnKey = some other ∧ other ≠ locator := by
  rw [publish_run]
  cases hget : directory.entries.get (.fromTranslatedFlow binding.translated) with
  | none =>
    refine .inl ⟨_, rfl, fun other hother => ?_, fun key => HashMap.get_insert _ _ _ _⟩
    cases hget.symm.trans hother
  | some other =>
    by_cases hown : other = locator
    · subst hown
      refine .inl ⟨directory, by simp, fun other' hother => ?_, fun key => ?_⟩
      · cases hget.symm.trans hother
        rfl
      · split_ifs with hkey
        · rw [hkey, ← hget]
        · rfl
    · exact .inr ⟨_, other, Prod.ext (if_neg hown) rfl, rfl, hown⟩

/-- An entry goes exactly if it is one of those listed. -/
theorem get_retireAll (entries : List (SessionId × NatBinding)) (directory : ReverseNatDirectory)
    (key : ReverseNatKey) :
    (directory.retireAll w entries).entries.get key =
      if ∃ entry ∈ entries, key = entry.2.returnKey ∧ directory.entries.get key = some ⟨w, entry.1⟩
      then none else directory.entries.get key := by
  induction entries generalizing directory with
  | nil => simp [retireAll]
  | cons entry rest ih =>
    rw [retireAll, List.foldl_cons, ← retireAll, ih, get_retire]
    by_cases hhead : key = entry.2.returnKey ∧ directory.entries.get key = some ⟨w, entry.1⟩
    · have hlisted : ∃ e ∈ entry :: rest, key = e.2.returnKey ∧
          directory.entries.get key = some ⟨w, e.1⟩ := ⟨entry, List.mem_cons_self, hhead⟩
      rw [if_pos hhead, if_pos hlisted]
      exact ite_self none
    · rw [if_neg hhead]
      refine if_congr ?_ rfl rfl
      simp only [List.mem_cons, exists_eq_or_imp, hhead, false_or]

theorem Lists.published (h : Lists w bindings directory)
    (hp : Publishes binding ⟨w, id⟩ directory directory') :
    Lists w (Function.update bindings id (some binding)) directory' := by
  intro id' binding' hid
  rw [Function.update_apply] at hid
  rw [hp.get]
  split_ifs at hid with hsame
  · cases hid
    rw [if_pos rfl, hsame]
  · split_ifs with hkey
    · exact congrArg some (hp.free _ (hkey ▸ h id' binding' hid)).symm
    · exact h id' binding' hid

/-- Bindings whose entries are not retired stay listed. -/
theorem Lists.retireAll (h : Lists w bindings directory) (entries : List (SessionId × NatBinding)) :
    Lists w (without bindings (entries.map Prod.fst)) (directory.retireAll w entries) := by
  intro id binding hid
  rw [without] at hid
  split_ifs at hid with hmem
  rw [get_retireAll, h id binding hid, if_neg]
  rintro ⟨entry, hentry, -, howner⟩
  cases howner
  exact hmem (List.mem_map_of_mem hentry)

theorem Backed.published (h : Backed w kind bindings directory)
    (hp : Publishes binding ⟨w, id⟩ directory directory')
    (hid : kind id → ∀ other, bindings id = some other → other = binding) :
    Backed w kind (Function.update bindings id (some binding)) directory' := by
  intro key id' hkind hkey
  rw [hp.get] at hkey
  rw [Function.update_apply]
  split_ifs at hkey with hown
  · cases hkey
    exact ⟨binding, if_pos rfl, hown⟩
  · obtain ⟨other, hother, hsame⟩ := h key id' hkind hkey
    split_ifs with hc
    · subst hc
      exact ⟨binding, rfl, hid hkind other hother ▸ hsame⟩
    · exact ⟨other, hother, hsame⟩

/-- Only the bindings of the kind matter. -/
theorem Backed.congr {bindings' : SessionId → Option NatBinding}
    (h : Backed w kind bindings directory) (hsame : ∀ id, kind id → bindings' id = bindings id) :
    Backed w kind bindings' directory := by
  intro key id hkind hkey
  rw [hsame id hkind]
  exact h key id hkind hkey

theorem Backed.retireAll (h : Backed w kind bindings directory)
    {entries : List (SessionId × NatBinding)}
    (hentries : ∀ entry ∈ entries, bindings entry.1 = some entry.2) :
    Backed w kind (without bindings (entries.map Prod.fst)) (directory.retireAll w entries) := by
  intro key id hkind hkey
  rw [get_retireAll] at hkey
  split_ifs at hkey with hgone
  obtain ⟨binding, hb, hk⟩ := h key id hkind hkey
  refine ⟨binding, ?_, hk⟩
  rw [without, if_neg, hb]
  intro hmem
  obtain ⟨entry, hentry, rfl⟩ := List.mem_map.mp hmem
  have hsame : entry.2 = binding := Option.some_inj.mp ((hentries entry hentry).symm.trans hb)
  exact hgone ⟨entry, hentry, hsame ▸ hk, hkey⟩

/-- Retiring entries leaves those of another kind backed. -/
theorem Backed.retireAll_other (h : Backed w kind bindings directory)
    (entries : List (SessionId × NatBinding)) :
    Backed w kind bindings (directory.retireAll w entries) := by
  intro key id hkind hkey
  rw [get_retireAll] at hkey
  split_ifs at hkey
  exact h key id hkind hkey

theorem Apart.refl (w : ℕ) (directory : ReverseNatDirectory) : Apart w directory directory :=
  fun _ _ _ => Iff.rfl

theorem Apart.published (h : Apart w start directory)
    (hp : Publishes binding ⟨w, id⟩ directory directory') : Apart w start directory' := by
  intro key locator hother
  rw [hp.get, ← h key locator hother]
  split_ifs with hkey
  · subst hkey
    refine iff_of_false (fun hc => ?_) fun hc => ?_
    · cases hc
      exact hother rfl
    · exact hother (congrArg SessionLocator.flowWorkerId (hp.free locator hc))
  · rfl

theorem Apart.retireAll (h : Apart w start directory) (entries : List (SessionId × NatBinding)) :
    Apart w start (directory.retireAll w entries) := by
  intro key locator hother
  rw [get_retireAll, ← h key locator hother]
  split_ifs with hgone
  · obtain ⟨entry, -, -, hkey⟩ := hgone
    rw [hkey]
    refine iff_of_false (by simp) fun hc => ?_
    cases hc
    exact hother rfl
  · rfl

theorem Within.published {A : ReverseNatKey → Prop} (h : Within w A directory)
    (hp : Publishes binding ⟨w, id⟩ directory directory') (hA : A binding.returnKey) :
    Within w A directory' := by
  intro key id' hkey
  rw [hp.get] at hkey
  split_ifs at hkey with hown
  · rwa [hown]
  · exact h key id' hkey

theorem Within.retireAll {A : ReverseNatKey → Prop} (h : Within w A directory)
    (entries : List (SessionId × NatBinding)) : Within w A (directory.retireAll w entries) := by
  intro key id hkey
  rw [get_retireAll] at hkey
  split_ifs at hkey
  exact h key id hkey

/-- The entries of worker `w`: every session is listed and every entry for the identifier
of a session is that of a session. `strict` is set where the same is known of the
entries for DNS tokens. The keys of all of them are of `A`. -/
structure Entries (A : ReverseNatKey → Prop) (w : ℕ) (strict : Prop) (start : ReverseNatDirectory)
    (sessions transactions : SessionId → Option NatBinding) (directory : ReverseNatDirectory) :
    Prop where
  listed : Lists w sessions directory
  live : Backed w (fun id => ¬ id.IsDnsToken) sessions directory
  active : strict → Backed w SessionId.IsDnsToken transactions directory
  plain : strict → ∀ id binding, sessions id = some binding → ¬ id.IsDnsToken
  apart : Apart w start directory
  within : Within w A directory

namespace Entries

variable {A : ReverseNatKey → Prop} {strict : Prop}
  {sessions transactions : SessionId → Option NatBinding}

/-- What another worker does to its own entries. -/
theorem frame {other : ℕ} (h : Entries A w strict start sessions transactions directory)
    (hne : w ≠ other) (ha : Apart other directory directory') :
    Entries A w strict directory' sessions transactions directory' := by
  have hown : ∀ key id, directory'.entries.get key = some ⟨w, id⟩ ↔
      directory.entries.get key = some ⟨w, id⟩ := fun key id => ha key ⟨w, id⟩ hne
  refine ⟨fun id binding hid => (hown _ _).mpr (h.listed id binding hid),
    fun key id hkind hkey => h.live key id hkind ((hown _ _).mp hkey),
    fun hs key id hkind hkey => h.active hs key id hkind ((hown _ _).mp hkey), h.plain,
    .refl w directory', fun key id hkey => h.within key id ((hown _ _).mp hkey)⟩

theorem publishSession (h : Entries A w strict start sessions transactions directory)
    (hp : Publishes binding ⟨w, id⟩ directory directory')
    (hid : ∀ other, sessions id = some other → other = binding)
    (hplain : strict → ¬ id.IsDnsToken) (hA : A binding.returnKey) :
    Entries A w strict start (Function.update sessions id (some binding)) transactions
      directory' := by
  refine ⟨h.listed.published hp, h.live.published hp fun _ => hid, fun hs => ?_,
    fun hs id' binding' hid' => ?_, h.apart.published hp, h.within.published hp hA⟩
  · refine ((h.active hs).published hp fun hkind => absurd hkind (hplain hs)).congr
      fun id' hkind => ?_
    rw [Function.update_of_ne]
    rintro rfl
    exact hplain hs hkind
  · rw [Function.update_apply] at hid'
    split_ifs at hid' with hc
    · exact hc ▸ hplain hs
    · exact h.plain hs id' binding' hid'

theorem retireSessions (h : Entries A w strict start sessions transactions directory)
    (entries : List (SessionId × NatBinding))
    (hentries : ∀ entry ∈ entries, sessions entry.1 = some entry.2) :
    Entries A w strict start (without sessions (entries.map Prod.fst)) transactions
      (directory.retireAll w entries) := by
  refine ⟨h.listed.retireAll entries, h.live.retireAll hentries,
    fun hs => (h.active hs).retireAll_other entries, fun hs id binding hid => ?_,
    h.apart.retireAll entries, h.within.retireAll entries⟩
  rw [without] at hid
  split_ifs at hid
  exact h.plain hs id binding hid

theorem publishTransaction (h : Entries A w strict start sessions transactions directory)
    (hp : Publishes binding ⟨w, id⟩ directory directory') (htoken : id.IsDnsToken)
    (hsession : sessions id = none) (hid : ∀ other, transactions id = some other → other = binding)
    (hA : A binding.returnKey) :
    Entries A w strict start sessions (Function.update transactions id (some binding))
      directory' := by
  have hsame : Function.update sessions id none = sessions := by
    rw [← hsession, Function.update_eq_self]
  refine ⟨fun id' binding' hid' => ?_, ?_, fun hs => (h.active hs).published hp fun _ => hid,
    h.plain, h.apart.published hp, h.within.published hp hA⟩
  · refine h.listed.published hp id' binding' ?_
    rwa [Function.update_of_ne]
    rintro rfl
    rw [hsession] at hid'
    cases hid'
  · refine (h.live.published hp fun hkind => absurd htoken hkind).congr fun id' hkind => ?_
    rw [Function.update_of_ne]
    rintro rfl
    exact hkind htoken

/-- A transaction whose key is taken by somebody else has no entry. -/
theorem dropTransaction (h : Entries A w strict start sessions transactions directory)
    {other : SessionLocator} (hother : directory.entries.get binding.returnKey = some other)
    (hne : other ≠ ⟨w, id⟩) (hid : ∀ held, transactions id = some held → held = binding) :
    Entries A w strict start sessions (Function.update transactions id none) directory := by
  refine ⟨h.listed, h.live, fun hs key id' hkind hkey => ?_, h.plain, h.apart, h.within⟩
  obtain ⟨held, hheld, hk⟩ := h.active hs key id' hkind hkey
  refine ⟨held, ?_, hk⟩
  rw [Function.update_of_ne, hheld]
  rintro rfl
  rw [hk, hid held hheld, hother] at hkey
  exact hne (Option.some_inj.mp hkey)

theorem retireTransactions (h : Entries A w strict start sessions transactions directory)
    (entries : List (SessionId × NatBinding))
    (hentries : ∀ entry ∈ entries, transactions entry.1 = some entry.2)
    (hsessions : ∀ entry ∈ entries, sessions entry.1 = none) :
    Entries A w strict start sessions (without transactions (entries.map Prod.fst))
      (directory.retireAll w entries) := by
  refine ⟨fun id binding hid => ?_, h.live.retireAll_other entries,
    fun hs => (h.active hs).retireAll hentries, h.plain, h.apart.retireAll entries,
    h.within.retireAll entries⟩
  refine h.listed.retireAll entries id binding ?_
  rw [without, if_neg, hid]
  intro hmem
  obtain ⟨entry, hentry, rfl⟩ := List.mem_map.mp hmem
  rw [hsessions entry hentry] at hid
  cases hid

/-- Where nothing is known of the transactions, nothing has to be kept of them. -/
theorem forget (h : Entries A w strict start sessions transactions directory) (hs : ¬ strict)
    (transactions' : SessionId → Option NatBinding) :
    Entries A w strict start sessions transactions' directory :=
  ⟨h.listed, h.live, fun hc => absurd hc hs, h.plain, h.apart, h.within⟩

end Entries

end ReverseNatDirectory

end NewProxy
