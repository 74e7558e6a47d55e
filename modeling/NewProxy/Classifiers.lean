import NewProxy.Reload

/-!
# The classifiers in service

`role_flags` of every attached interface over whole runs: preparing leaves them
zero, a successful enable sets them, a failed one takes them back. A reload
runs the configuration of the disabled phase on the live interfaces, and with
it the write that clears them (`roleFlags_kept_iff`).
-/
namespace NewProxy

/-! ## What the functions of the runtime leave in the maps -/

section ConfigureLinks

variable {refuse : UInt32 → ℕ → Option String} {tunnelLocalIps : List IpAddr} {port : UInt16}
  {config : ApplianceConfig} {dnsInterceptIfindex : Option UInt32} {links : List BpfLink}

theorem configureLinks_cons (link : BpfLink) (pinned : PinnedMaps) :
    (configureLinks refuse tunnelLocalIps port config dnsInterceptIfindex (link :: links)).run
        pinned =
      (configureLinks refuse tunnelLocalIps port config dnsInterceptIfindex links).run
        ((onInterface link.ifindex (configureBpfMaps (refuse link.ifindex) link.ifindex
          tunnelLocalIps link.roles port config dnsInterceptIfindex)).run pinned).2 := by
  have hne := writeAll_ne_panic (refuse link.ifindex) 0
    (MapWrite.configuration link.ifindex tunnelLocalIps link.roles port config dnsInterceptIfindex)
    (pinned link.ifindex)
  rw [configureLinks, Act.run_bind]
  simp only [Act.attempt, run_onInterface, configureBpfMaps]
  rcases hr : (writeAll (refuse link.ifindex) 0 (MapWrite.configuration link.ifindex tunnelLocalIps
    link.roles port config dnsInterceptIfindex)).run (pinned link.ifindex) with ⟨(e | _) | a, t⟩
  · rfl
  · exact absurd (by rw [hr]; rfl) hne
  · rfl

theorem configureLinks_other {ifindex : UInt32} (h : ∀ link ∈ links, ifindex ≠ link.ifindex)
    (pinned : PinnedMaps) :
    ((configureLinks refuse tunnelLocalIps port config dnsInterceptIfindex links).run
      pinned).2 ifindex = pinned ifindex := by
  induction links generalizing pinned with
  | nil => rfl
  | cons link links ih =>
    rw [configureLinks_cons, ih (fun l hl => h l (by simp [hl])),
      onInterface_other (h link (by simp))]

/-- Each link ends as its own configuration leaves it. -/
theorem configureLinks_maps (hnodup : (links.map (·.ifindex)).Nodup) {link : BpfLink}
    (hlink : link ∈ links) (pinned : PinnedMaps) :
    ((configureLinks refuse tunnelLocalIps port config dnsInterceptIfindex links).run
        pinned).2 link.ifindex =
      ((configureBpfMaps (refuse link.ifindex) link.ifindex tunnelLocalIps link.roles port config
        dnsInterceptIfindex).run (pinned link.ifindex)).2 := by
  induction links generalizing pinned with
  | nil => simp at hlink
  | cons first links ih =>
    rw [List.map_cons, List.nodup_cons] at hnodup
    have hother : ∀ l ∈ links, first.ifindex ≠ l.ifindex := by
      intro l hl heq
      exact hnodup.1 (List.mem_map.mpr ⟨l, hl, heq.symm⟩)
    rw [configureLinks_cons]
    rcases List.mem_cons.mp hlink with rfl | hlink
    · rw [configureLinks_other hother, onInterface_same]
    · rw [ih hnodup.2 hlink, onInterface_other (hother link hlink).symm]

theorem configureLinks_returns (pinned : PinnedMaps) :
    ((configureLinks refuse tunnelLocalIps port config dnsInterceptIfindex links).run pinned).1 =
      .ok () := by
  induction links generalizing pinned with
  | nil => rfl
  | cons link links ih => rw [configureLinks_cons, ih]

end ConfigureLinks

/-! ## Putting the classifiers into service -/

section Enable

variable {refuse rollback : UInt32 → Option String} {links : List BpfLink}

theorem run_writeRoleFlags (refuse : UInt32 → Option String) (ifindex : UInt32) (flags : UInt8)
    (pinned : PinnedMaps) :
    (writeRoleFlags refuse ifindex flags).run pinned =
      match refuse ifindex with
      | some message => (Outcome.fail (.bpf message), pinned)
      | none => (.ok (), Function.update pinned ifindex
          { pinned ifindex with roleFlags := flags }) := by
  rw [writeRoleFlags, run_onInterface]
  rcases refuse ifindex with _ | message
  · rfl
  · simp [updatePinnedMap]

theorem rollBack_cons (ifindex : UInt32) (enabled : List UInt32)
    (h : ∃ link ∈ links, link.ifindex = ifindex) (pinned : PinnedMaps) :
    (rollBack rollback links (ifindex :: enabled)).run pinned =
      (rollBack rollback links enabled).run
        ((writeRoleFlags rollback ifindex 0).run pinned).2 := by
  obtain ⟨link, hfind⟩ : ∃ link, links.find? (·.ifindex = ifindex) = some link := by
    obtain ⟨link, hlink, hindex⟩ := h
    exact Option.isSome_iff_exists.mp (List.find?_isSome.mpr ⟨link, hlink, by simpa using hindex⟩)
  have hindex : link.ifindex = ifindex := by simpa using List.find?_some hfind
  rw [rollBack, hfind]
  simp only [hindex, Act.run_bind, Act.attempt, run_writeRoleFlags]
  rcases rollback ifindex with _ | message <;> rfl

/-- Whatever is refused, a rollback returns and touches nothing but flags. -/
theorem rollBack_returns {enabled : List UInt32}
    (h : ∀ ifindex ∈ enabled, ∃ link ∈ links, link.ifindex = ifindex) (pinned : PinnedMaps) :
    ((rollBack rollback links enabled).run pinned).1 = .ok () := by
  induction enabled generalizing pinned with
  | nil => rfl
  | cons ifindex enabled ih =>
    rw [rollBack_cons ifindex enabled (h ifindex (by simp)), ih fun i hi => h i (by simp [hi])]

theorem rollBack_flags {enabled : List UInt32} (hrollback : ∀ ifindex, rollback ifindex = none)
    (h : ∀ ifindex ∈ enabled, ∃ link ∈ links, link.ifindex = ifindex) (pinned : PinnedMaps)
    (other : UInt32) :
    (((rollBack rollback links enabled).run pinned).2 other).roleFlags =
      if other ∈ enabled then 0 else (pinned other).roleFlags := by
  induction enabled generalizing pinned with
  | nil => rfl
  | cons ifindex enabled ih =>
    rw [rollBack_cons ifindex enabled (h ifindex (by simp)), ih fun i hi => h i (by simp [hi]),
      run_writeRoleFlags, hrollback]
    by_cases hsame : other = ifindex
    · subst hsame
      simp
    · simp [hsame]

/-- The links in service so far, `done`, have their flags; the others have none. -/
structure Half (done rest : List BpfLink) (pinned : PinnedMaps) : Prop where
  on : ∀ link ∈ done, (pinned link.ifindex).roleFlags = link.roles.flags
  off : ∀ link ∈ rest, (pinned link.ifindex).roleFlags = 0

theorem Half.step {done rest : List BpfLink} {link : BpfLink} {pinned : PinnedMaps}
    (hnodup : ((done ++ link :: rest).map (·.ifindex)).Nodup)
    (h : Half done (link :: rest) pinned) :
    Half (done ++ [link]) rest (Function.update pinned link.ifindex
      { pinned link.ifindex with roleFlags := link.roles.flags }) := by
  rw [List.map_append, List.map_cons, List.nodup_append] at hnodup
  obtain ⟨-, hrest, hdisjoint⟩ := hnodup
  constructor
  · intro other hother
    rcases List.mem_append.mp hother with hdone | hlast
    · have hne : other.ifindex ≠ link.ifindex :=
        hdisjoint _ (List.mem_map_of_mem hdone) _ (by simp)
      rw [Function.update_of_ne hne]
      exact h.on other hdone
    · obtain rfl := List.mem_singleton.mp hlast
      rw [Function.update_self]
  · intro other hother
    have hne : other.ifindex ≠ link.ifindex := by
      intro heq
      exact (List.nodup_cons.mp hrest).1 (List.mem_map.mpr ⟨other, hother, heq⟩)
    rw [Function.update_of_ne hne]
    exact h.off other (by simp [hother])

theorem enableRest_ends (refuse rollback : UInt32 → Option String) (done : List BpfLink)
    {rest : List BpfLink} (hlinks : links = done ++ rest)
    (hnodup : (links.map (·.ifindex)).Nodup) {pinned : PinnedMaps} (h : Half done rest pinned) :
    Act.Ends (fun _ pinned => ∀ link ∈ links, (pinned link.ifindex).roleFlags = link.roles.flags)
      (fun pinned => (∀ ifindex, rollback ifindex = none) →
        ∀ link ∈ links, (pinned link.ifindex).roleFlags = 0)
      ((enableRest refuse rollback links (done.map (·.ifindex)) rest).run pinned) := by
  induction rest generalizing done pinned with
  | nil =>
    rw [List.append_nil] at hlinks
    subst hlinks
    exact h.on
  | cons link rest ih =>
    rw [enableRest, Act.run_bind]
    simp only [Act.attempt, run_writeRoleFlags]
    rcases refuse link.ifindex with _ | message
    · have hstep := h.step (hlinks ▸ hnodup)
      simpa using ih (done ++ [link]) (by simp [hlinks]) hstep
    · -- the refused link and those behind it were never set
      have hmem : ∀ ifindex ∈ done.map (·.ifindex), ∃ link ∈ links, link.ifindex = ifindex := by
        intro ifindex hifindex
        obtain ⟨l, hl, rfl⟩ := List.mem_map.mp hifindex
        exact ⟨l, by simp [hlinks, hl], rfl⟩
      have hback : (rollBack rollback links (done.map (·.ifindex))).run pinned = (.ok (), _) :=
        Prod.ext (rollBack_returns hmem pinned) rfl
      change Act.Ends _ _ ((rollBack rollback links (done.map (·.ifindex)) >>= fun _ =>
        (Act.fail (.bpf message) : Act PinnedMaps RuntimeError Unit)).run pinned)
      rw [Act.bind_of_ok hback]
      intro hrollback other hother
      rw [rollBack_flags hrollback hmem]
      split_ifs with hdone
      · rfl
      · rw [hlinks, List.mem_append] at hother
        rcases hother with hother | hother
        · exact absurd (List.mem_map_of_mem hother) hdone
        · exact h.off other hother

/-- After a success every link has its flags. After a failure whose rollback was
not refused none has. -/
theorem enableBpfClassifiers_ends (refuse rollback : UInt32 → Option String)
    (hnodup : (links.map (·.ifindex)).Nodup) {pinned : PinnedMaps}
    (h : ∀ link ∈ links, (pinned link.ifindex).roleFlags = 0) :
    Act.Ends (fun _ pinned => ∀ link ∈ links, (pinned link.ifindex).roleFlags = link.roles.flags)
      (fun pinned => (∀ ifindex, rollback ifindex = none) →
        ∀ link ∈ links, (pinned link.ifindex).roleFlags = 0)
      ((enableBpfClassifiers refuse rollback links).run pinned) :=
  enableRest_ends refuse rollback [] rfl hnodup ⟨by simp, h⟩

/-- Two states of the maps that differ in role flags alone. -/
def SameButFlags (pinned pinned' : PinnedMaps) : Prop :=
  ∀ ifindex, { pinned ifindex with roleFlags := 0 } = { pinned' ifindex with roleFlags := 0 }

theorem writeRoleFlags_stable (pinned : PinnedMaps) (ifindex : UInt32) (flags : UInt8) :
    Act.Stable (SameButFlags pinned) (writeRoleFlags refuse ifindex flags) := by
  intro pinned' h other
  rw [run_writeRoleFlags]
  rcases refuse ifindex with _ | message
  · by_cases hsame : other = ifindex
    · subst hsame
      simpa using h other
    · simpa [hsame] using h other
  · exact h other

theorem rollBack_stable (pinned : PinnedMaps) (enabled : List UInt32) :
    Act.Stable (SameButFlags pinned) (rollBack rollback links enabled) := by
  induction enabled with
  | nil => exact .pure ()
  | cons ifindex enabled ih =>
    rw [rollBack]
    split
    · exact .bind (.attempt (writeRoleFlags_stable pinned _ _)) fun _ => ih
    · exact ih

theorem enableRest_stable (refuse rollback : UInt32 → Option String) (links : List BpfLink)
    (pinned : PinnedMaps) (enabled : List UInt32) (rest : List BpfLink) :
    Act.Stable (SameButFlags pinned) (enableRest refuse rollback links enabled rest) := by
  induction rest generalizing enabled with
  | nil => exact .pure ()
  | cons link rest ih =>
    rw [enableRest]
    refine .bind (.attempt (writeRoleFlags_stable pinned _ _)) fun result => ?_
    rcases result with error | ⟨⟩
    · exact .bind (rollBack_stable pinned enabled) fun _ => .fail error
    · exact ih _

end Enable

/-! ## Preparing -/

def IoClassifiers.Served (roles : IoClassifiers) : Prop := roles.tunnel ∨ roles.intercept

theorem IoClassifiers.Served.flags_ne_zero {roles : IoClassifiers} (h : roles.Served) :
    roles.flags ≠ 0 := by
  obtain ⟨_ | _, _ | _⟩ := roles
  · simp [Served] at h
  all_goals decide

theorem mergeInterface_served {interfaces merged : MergedInterfaces} {spec : InterfaceSpec}
    (hspec : spec.classifiers.Served)
    (h : ∀ ifindex queueCount roles, interfaces.get ifindex = some (queueCount, roles) →
      roles.Served) (hok : mergeInterface interfaces spec = .ok merged) :
    ∀ ifindex queueCount roles, merged.get ifindex = some (queueCount, roles) → roles.Served := by
  simp only [mergeInterface, Outcome.bind_unit_eq_ok, Outcome.ensure_eq_ok] at hok
  obtain ⟨-, -, hok⟩ := hok
  rcases hget : interfaces.get spec.ifindex with _ | ⟨queueCount, classifiers⟩
  · rw [hget] at hok
    obtain rfl := Outcome.pure_eq_ok.mp hok
    intro ifindex count roles hroles
    rw [OrdMap.get_insert] at hroles
    split_ifs at hroles with hsame
    · obtain ⟨-, rfl⟩ := Prod.mk.inj (Option.some.inj hroles)
      exact hspec
    · exact h ifindex count roles hroles
  · simp only [hget, Outcome.bind_unit_eq_ok, Outcome.pure_eq_ok] at hok
    obtain ⟨-, rfl⟩ := hok
    intro ifindex count roles hroles
    rw [OrdMap.get_insert] at hroles
    split_ifs at hroles with hsame
    · obtain ⟨-, rfl⟩ := Prod.mk.inj (Option.some.inj hroles)
      have hbefore := h spec.ifindex queueCount classifiers hget
      simp only [IoClassifiers.Served, Bool.or_eq_true] at hbefore ⊢
      tauto
    · exact h ifindex count roles hroles

theorem mergeInterfaces_served {specs : List InterfaceSpec} {merged : MergedInterfaces}
    (hspecs : ∀ spec ∈ specs, spec.classifiers.Served) (hok : mergeInterfaces specs = .ok merged) :
    ∀ ifindex queueCount roles, merged.get ifindex = some (queueCount, roles) → roles.Served := by
  suffices h : ∀ start : MergedInterfaces,
      (∀ ifindex queueCount roles, start.get ifindex = some (queueCount, roles) → roles.Served) →
      specs.foldlM mergeInterface start = .ok merged →
      ∀ ifindex queueCount roles, merged.get ifindex = some (queueCount, roles) → roles.Served from
    h .empty (by simp) hok
  clear hok
  induction specs with
  | nil =>
    intro start hstart hok
    obtain rfl := Outcome.pure_eq_ok.mp hok
    exact hstart
  | cons spec specs ih =>
    intro start hstart hok
    rw [List.foldlM_cons] at hok
    obtain ⟨next, hnext, hrest⟩ := Outcome.bind_eq_ok.mp hok
    exact ih (fun s hs => hspecs s (by simp [hs])) next
      (mergeInterface_served (hspecs spec (by simp)) hstart hnext) hrest

section Attach

variable {host : Host} {tunnelLocalIps : List IpAddr} {port : UInt16} {config : ApplianceConfig}
  {dnsInterceptIfindex : Option UInt32} {classifiers : MergedInterfaces}

/-- The maps of a link after its configuration alone. -/
def freshMaps (tunnelLocalIps : List IpAddr) (port : UInt16) (config : ApplianceConfig)
    (dnsInterceptIfindex : Option UInt32) (link : BpfLink) : BpfMaps :=
  MapWrite.applyAll (MapWrite.configuration link.ifindex tunnelLocalIps link.roles port config
    dnsInterceptIfindex) .loaded

theorem attachLinks_cons {ifindex : UInt32} {rest : List UInt32} {links : List BpfLink}
    {pinned pinned' : PinnedMaps}
    (h : (attachLinks host tunnelLocalIps port config dnsInterceptIfindex classifiers
      (ifindex :: rest)).run pinned = (.ok links, pinned')) :
    ∃ queueCount roles others, host.attach ifindex = none ∧
      classifiers.get ifindex = some (queueCount, roles) ∧ links = ⟨ifindex, roles⟩ :: others ∧
      (attachLinks host tunnelLocalIps port config dnsInterceptIfindex classifiers rest).run
        (Function.update pinned ifindex (freshMaps tunnelLocalIps port config dnsInterceptIfindex
          ⟨ifindex, roles⟩)) = (.ok others, pinned') := by
  rw [attachLinks] at h
  obtain ⟨⟨⟩, attached, hattach, h⟩ := Act.bind_eq_ok.mp h
  obtain ⟨⟨queueCount, roles⟩, s, hexpect, h⟩ := Act.bind_eq_ok.mp h
  obtain ⟨hget, rfl⟩ := Prod.mk.inj hexpect
  obtain ⟨⟨⟩, configured, hconfigure, h⟩ := Act.bind_eq_ok.mp h
  obtain ⟨others, s, hrest, h⟩ := Act.bind_eq_ok.mp h
  obtain ⟨hlinks, rfl⟩ := Prod.mk.inj h
  obtain ⟨hanswer, hattached⟩ : host.attach ifindex = none ∧
      attached = Function.update pinned ifindex .loaded := by
    rw [attachLink] at hattach
    rcases hanswer : host.attach ifindex with _ | message <;> rw [hanswer] at hattach
    · exact ⟨rfl, (Prod.mk.inj hattach).2.symm⟩
    · exact absurd (Prod.mk.inj hattach).1 (by simp [Outcome.fail])
  rw [run_onInterface] at hconfigure
  obtain ⟨hok, rfl⟩ := Prod.mk.inj hconfigure
  have hmaps : ((configureBpfMaps (host.refuse ifindex) ifindex tunnelLocalIps roles port config
      dnsInterceptIfindex).run (attached ifindex)).2 =
      freshMaps tunnelLocalIps port config dnsInterceptIfindex ⟨ifindex, roles⟩ := by
    refine (writeAll_ok (Prod.ext hok rfl)).trans ?_
    rw [hattached, Function.update_self]
    rfl
  refine ⟨queueCount, roles, others, hanswer, Outcome.expect_eq_ok.mp hget,
    (Outcome.pure_eq_ok.mp hlinks).symm, ?_⟩
  rw [← hrest, hmaps, hattached, Function.update_idem]

/-- Attaching succeeds only if no write is refused, so each link ends with its
configuration complete. -/
theorem attachLinks_ok {interfaces : List UInt32} (hnodup : interfaces.Nodup)
    {links : List BpfLink} {pinned pinned' : PinnedMaps}
    (h : (attachLinks host tunnelLocalIps port config dnsInterceptIfindex classifiers
      interfaces).run pinned = (.ok links, pinned')) :
    links.map (·.ifindex) = interfaces ∧
      (∀ link ∈ links, ∃ queueCount, classifiers.get link.ifindex = some (queueCount, link.roles)) ∧
      (∀ link ∈ links, pinned' link.ifindex =
        freshMaps tunnelLocalIps port config dnsInterceptIfindex link) ∧
      ∀ ifindex ∉ interfaces, pinned' ifindex = pinned ifindex := by
  induction interfaces generalizing links pinned with
  | nil =>
    obtain ⟨hlinks, rfl⟩ := Prod.mk.inj h
    obtain rfl := Outcome.pure_eq_ok.mp hlinks
    simp
  | cons ifindex rest ih =>
    obtain ⟨hnot, hrest⟩ := List.nodup_cons.mp hnodup
    obtain ⟨queueCount, roles, others, -, hget, rfl, htail⟩ := attachLinks_cons h
    obtain ⟨hindexes, hroles, hmaps, hothers⟩ := ih hrest htail
    refine ⟨by simp [hindexes], ?_, ?_, ?_⟩
    · intro link hlink
      rcases List.mem_cons.mp hlink with rfl | hlink
      · exact ⟨queueCount, hget⟩
      · exact hroles link hlink
    · intro link hlink
      rcases List.mem_cons.mp hlink with rfl | hlink
      · rw [hothers ifindex hnot, Function.update_self]
      · exact hmaps link hlink
    · intro other hother
      rw [List.mem_cons, not_or] at hother
      rw [hothers other hother.2, Function.update_of_ne hother.1]

/-- A host that refuses no write attaches the same links under any other
configuration. -/
theorem attachLinks_again (hhost : ∀ ifindex index, host.refuse ifindex index = none)
    (config' : ApplianceConfig) {interfaces : List UInt32} {links : List BpfLink}
    {pinned pinned' : PinnedMaps}
    (h : (attachLinks host tunnelLocalIps port config dnsInterceptIfindex classifiers
      interfaces).run pinned = (.ok links, pinned')) (start : PinnedMaps) :
    ∃ final, (attachLinks host tunnelLocalIps port config' dnsInterceptIfindex classifiers
      interfaces).run start = (.ok links, final) := by
  induction interfaces generalizing links pinned start with
  | nil =>
    obtain ⟨hlinks, -⟩ := Prod.mk.inj h
    exact ⟨start, Prod.ext hlinks rfl⟩
  | cons ifindex rest ih =>
    obtain ⟨queueCount, roles, others, hanswer, hget, rfl, htail⟩ := attachLinks_cons h
    have hattach : (attachLink host ifindex).run start =
        (.ok (), Function.update start ifindex .loaded) := by
      rw [attachLink, hanswer]
      rfl
    have hconfigure := run_onInterface ifindex (configureBpfMaps (host.refuse ifindex) ifindex
      tunnelLocalIps roles port config' dnsInterceptIfindex) (Function.update start ifindex .loaded)
    rw [configureBpfMaps, writeAll_unrefused (hhost ifindex)] at hconfigure
    obtain ⟨final, hfinal⟩ := ih htail _
    refine ⟨final, ?_⟩
    rw [attachLinks, Act.bind_of_ok hattach, hget]
    refine (Act.bind_of_ok (a := (queueCount, roles)) rfl).trans ?_
    exact (Act.bind_of_ok hconfigure).trans ((Act.bind_of_ok hfinal).trans rfl)

end Attach

namespace PreparedRuntime

variable {host : Host} {config : ApplianceConfig} {runtime : PreparedRuntime}

theorem survey_ok {found : Survey} (h : survey host config = .ok found) :
    found.interfaces.Nodup ∧ tunnelPort config = .ok found.port ∧
      ∀ ifindex queueCount roles, found.classifiers.get ifindex = some (queueCount, roles) →
        roles.Served := by
  simp only [survey, Outcome.bind_eq_ok] at h
  obtain ⟨tunnel, -, tunnelLocalIps, -, -, -, intercepts, -, dnsIfindex, -, classifiers, hmerge,
    port, hport, h⟩ := h
  obtain rfl := Outcome.pure_eq_ok.mp h
  refine ⟨OrdMap.nodup_keys _, hport,
    mergeInterfaces_served ?_ (Outcome.mapErr_eq_ok.mp hmerge)⟩
  intro spec hspec
  rcases List.mem_cons.mp hspec with rfl | hspec
  · exact .inl rfl
  · obtain ⟨⟨intercept, interface⟩, -, rfl⟩ := List.mem_map.mp hspec
    exact .inr rfl

theorem survey_withPolicy (policy : IpPolicy) :
    survey host (config.withPolicy policy) = survey host config := rfl

/-- What a prepared runtime is for its configuration. -/
structure Ready (config : ApplianceConfig) (port : UInt16) (runtime : PreparedRuntime) : Prop where
  loaded : runtime.config = config
  listens : tunnelPort config = .ok port
  distinct : (runtime.bpfLinks.map (·.ifindex)).Nodup
  served : ∀ link ∈ runtime.bpfLinks, link.roles.Served
  maps : ∀ link ∈ runtime.bpfLinks, runtime.pinned link.ifindex =
    freshMaps runtime.tunnelLocalIps port config runtime.dnsInterceptIfindex link

theorem build_ok (h : build host config = .ok runtime) : ∃ port, Ready config port runtime := by
  simp only [build, Outcome.bind_eq_ok] at h
  obtain ⟨found, hfound, links, hlinks, -, -, h⟩ := h
  obtain rfl := Outcome.pure_eq_ok.mp h
  obtain ⟨hnodup, hport, hserved⟩ := survey_ok hfound
  obtain ⟨hindexes, hroles, hmaps, -⟩ := attachLinks_ok hnodup (Prod.ext hlinks rfl)
  refine ⟨found.port, rfl, hport, by rw [hindexes]; exact hnodup, ?_, hmaps⟩
  intro link hlink
  obtain ⟨queueCount, hget⟩ := hroles link hlink
  exact hserved _ _ _ hget

/-- A host that refuses no write prepares the same links under another policy. -/
theorem build_withPolicy (hhost : ∀ ifindex index, host.refuse ifindex index = none)
    (h : build host config = .ok runtime) (policy : IpPolicy) :
    ∃ fresh, build host (config.withPolicy policy) = .ok fresh ∧
      fresh.bpfLinks = runtime.bpfLinks ∧ fresh.tunnelLocalIps = runtime.tunnelLocalIps ∧
      fresh.dnsInterceptIfindex = runtime.dnsInterceptIfindex := by
  simp only [build, Outcome.bind_eq_ok] at h
  obtain ⟨found, hfound, links, hlinks, hrest, hhostRest, h⟩ := h
  obtain rfl := Outcome.pure_eq_ok.mp h
  obtain ⟨final, hfinal⟩ := attachLinks_again hhost (config.withPolicy policy)
    (Prod.ext hlinks rfl) fun _ => .loaded
  refine ⟨⟨config.withPolicy policy, found.tunnelLocalIps, links, found.dnsInterceptIfindex,
    final⟩, ?_, rfl, rfl, rfl⟩
  simp only [build, survey_withPolicy, hfound, Outcome.bind_ok, hfinal, hhostRest]
  rfl

/-! ## The main loop -/

theorem run_onMaps {α : Type} (x : Act PinnedMaps RuntimeError α) (runtime : PreparedRuntime) :
    (onMaps x).run runtime =
      ((x.run runtime.pinned).1, { runtime with pinned := (x.run runtime.pinned).2 }) := by
  simp only [onMaps, Act.zoom, Outcome.mapErr_id]

/-- What no reload changes. -/
structure Alike (first runtime : PreparedRuntime) : Prop where
  links : runtime.bpfLinks = first.bpfLinks
  localIps : runtime.tunnelLocalIps = first.tunnelLocalIps
  dnsIfindex : runtime.dnsInterceptIfindex = first.dnsInterceptIfindex
  port : tunnelPort runtime.config = tunnelPort first.config
  source : runtime.config.configSourcePath = first.config.configSourcePath

end PreparedRuntime

/-- The reload gets as far as the maps. -/
def Reload.TakesEffect (signal : Reload) (config : ApplianceConfig) : Prop :=
  config.configSourcePath = none ∨ signal.loaded.isSome

theorem reloadPolicyFromSource_some {loaded : Option ApplianceConfig}
    {config config' : ApplianceConfig} (h : reloadPolicyFromSource loaded config = some config') :
    tunnelPort config' = tunnelPort config ∧
      config'.configSourcePath = config.configSourcePath := by
  rw [reloadPolicyFromSource] at h
  split at h
  · obtain rfl := Option.some.inj h
    exact ⟨rfl, rfl⟩
  · obtain ⟨reloaded, -, rfl⟩ := Option.map_eq_some_iff.mp h
    exact ⟨rfl, rfl⟩

theorem reloadPolicyFromSource_isSome {signal : Reload} {config : ApplianceConfig} :
    (reloadPolicyFromSource signal.loaded config).isSome ↔ signal.TakesEffect config := by
  rw [reloadPolicyFromSource, Reload.TakesEffect]
  split <;> simp_all

namespace PreparedRuntime

variable {first runtime : PreparedRuntime} {port : UInt16}

theorem reload_skipped {signal : Reload}
    (h : reloadPolicyFromSource signal.loaded runtime.config = none) :
    (reload signal).run runtime = (.ok (), runtime) := by
  rw [reload, Act.run_bind, Act.run_get]
  simp only [h]
  rfl

theorem reload_taken {signal : Reload} {config : ApplianceConfig}
    (h : reloadPolicyFromSource signal.loaded runtime.config = some config)
    (hport : tunnelPort runtime.config = .ok port) :
    (reload signal).run runtime = (.ok (), { runtime with
      config
      pinned := ((configureLinks signal.refuse runtime.tunnelLocalIps port config
        runtime.dnsInterceptIfindex runtime.bpfLinks).run runtime.pinned).2 }) := by
  have hport' : tunnelPort config = .ok port := (reloadPolicyFromSource_some h).1.trans hport
  rw [reload, Act.run_bind, Act.run_get]
  simp only [h, Act.run_bind, Act.run_modify, Act.run_call, hport', run_onMaps,
    configureLinks_returns]

theorem Alike.reload (h : Alike first runtime) (hport : tunnelPort first.config = .ok port)
    (signal : Reload) :
    ((reload signal).run runtime).1 = .ok () ∧ Alike first ((reload signal).run runtime).2 := by
  rcases hload : reloadPolicyFromSource signal.loaded runtime.config with _ | config
  · rw [reload_skipped hload]
    exact ⟨rfl, h⟩
  · obtain ⟨hsame, hsource⟩ := reloadPolicyFromSource_some hload
    rw [reload_taken hload (h.port.trans hport)]
    exact ⟨rfl, h.links, h.localIps, h.dnsIfindex, hsame.trans h.port, hsource.trans h.source⟩

theorem mainLoop_cons (h : Alike first runtime) (hport : tunnelPort first.config = .ok port)
    (signal : Reload) (signals : List Reload) :
    (mainLoop (signal :: signals)).run runtime =
      (mainLoop signals).run ((PreparedRuntime.reload signal).run runtime).2 := by
  rw [mainLoop, Act.run_bind]
  have hok := (h.reload hport signal).1
  rcases hr : (PreparedRuntime.reload signal).run runtime with ⟨e | a, t⟩
  · simp [hr] at hok
  · rfl

/-- A reload that takes effect leaves the flags of a link alone only if the
kernel refuses one of the first two writes to it. -/
theorem reload_roleFlags (h : Alike first runtime) (hport : tunnelPort first.config = .ok port)
    (hdistinct : (first.bpfLinks.map (·.ifindex)).Nodup) {signal : Reload}
    (heffect : signal.TakesEffect first.config) {link : BpfLink} (hlink : link ∈ first.bpfLinks) :
    (((PreparedRuntime.reload signal).run runtime).2.pinned link.ifindex).roleFlags =
      if (signal.refuse link.ifindex 0).isSome ∨ (signal.refuse link.ifindex 1).isSome then
        (runtime.pinned link.ifindex).roleFlags
      else 0 := by
  have heffect' : signal.TakesEffect runtime.config := by
    rwa [Reload.TakesEffect, h.source]
  obtain ⟨config, hload⟩ := Option.isSome_iff_exists.mp (reloadPolicyFromSource_isSome.mpr heffect')
  rw [reload_taken hload (h.port.trans hport)]
  rw [← h.links] at hdistinct hlink
  exact (congrArg BpfMaps.roleFlags (configureLinks_maps hdistinct hlink _)).trans
    (configureBpfMaps_roleFlags ..)

theorem reload_idle {signal : Reload} (h : Alike first runtime)
    (heffect : ¬ signal.TakesEffect first.config) :
    (PreparedRuntime.reload signal).run runtime = (.ok (), runtime) := by
  apply reload_skipped
  rw [← Option.not_isSome_iff_eq_none, reloadPolicyFromSource_isSome, Reload.TakesEffect, h.source]
  exact heffect

/-- The interfaces a reload spares: one of the first two writes is refused. -/
def Spares (signal : Reload) (links : List BpfLink) : Prop :=
  ∀ link ∈ links,
    (signal.refuse link.ifindex 0).isSome ∨ (signal.refuse link.ifindex 1).isSome

theorem mainLoop_spared (h : Alike first runtime) (hport : tunnelPort first.config = .ok port)
    (hdistinct : (first.bpfLinks.map (·.ifindex)).Nodup) {signals : List Reload}
    (hspared : ∀ signal ∈ signals, signal.TakesEffect first.config → Spares signal first.bpfLinks)
    {link : BpfLink} (hlink : link ∈ first.bpfLinks) :
    (((mainLoop signals).run runtime).2.pinned link.ifindex).roleFlags =
      (runtime.pinned link.ifindex).roleFlags := by
  induction signals generalizing runtime with
  | nil => rfl
  | cons signal signals ih =>
    rw [mainLoop_cons h hport,
      ih (h.reload hport signal).2 fun s hs => hspared s (by simp [hs])]
    by_cases heffect : signal.TakesEffect first.config
    · rw [reload_roleFlags h hport hdistinct heffect hlink,
        if_pos (hspared signal (by simp) heffect link hlink)]
    · rw [reload_idle h heffect]

theorem mainLoop_append (h : Alike first runtime) (hport : tunnelPort first.config = .ok port)
    (earlier later : List Reload) :
    Alike first ((mainLoop earlier).run runtime).2 ∧
      (mainLoop (earlier ++ later)).run runtime =
        (mainLoop later).run ((mainLoop earlier).run runtime).2 := by
  induction earlier generalizing runtime with
  | nil => exact ⟨h, rfl⟩
  | cons signal earlier ih =>
    rw [List.cons_append, mainLoop_cons h hport, mainLoop_cons h hport]
    exact ih (h.reload hport signal).2

theorem enable_ends (refuse rollback : UInt32 → Option String)
    (hdistinct : (runtime.bpfLinks.map (·.ifindex)).Nodup)
    (h : ∀ link ∈ runtime.bpfLinks, (runtime.pinned link.ifindex).roleFlags = 0) :
    Act.Ends
      (fun _ served => Alike runtime served ∧ served.config = runtime.config ∧
        SameButFlags runtime.pinned served.pinned ∧
        ∀ link ∈ runtime.bpfLinks, (served.pinned link.ifindex).roleFlags = link.roles.flags)
      (fun failed => (∀ ifindex, rollback ifindex = none) →
        ∀ link ∈ runtime.bpfLinks, (failed.pinned link.ifindex).roleFlags = 0)
      ((enable refuse rollback).run runtime) := by
  have hends := enableBpfClassifiers_ends refuse rollback hdistinct h
  have hsame : SameButFlags runtime.pinned _ :=
    enableRest_stable refuse rollback runtime.bpfLinks runtime.pinned [] runtime.bpfLinks
      runtime.pinned fun _ => rfl
  rw [enable, Act.run_bind, Act.run_get]
  simp only [run_onMaps]
  change SameButFlags runtime.pinned
    ((enableBpfClassifiers refuse rollback runtime.bpfLinks).run runtime.pinned).2 at hsame
  rcases hr : (enableBpfClassifiers refuse rollback runtime.bpfLinks).run runtime.pinned with
    ⟨(e | _) | a, t⟩ <;> rw [hr] at hends hsame
  · exact hends
  · exact hends
  · exact ⟨⟨rfl, rfl, rfl, rfl, rfl⟩, rfl, hsame, hends⟩

theorem freshMaps_roleFlags (tunnelLocalIps : List IpAddr) (port : UInt16)
    (config : ApplianceConfig) (dnsInterceptIfindex : Option UInt32) (link : BpfLink) :
    (freshMaps tunnelLocalIps port config dnsInterceptIfindex link).roleFlags = 0 := by
  have hrun : ((configureBpfMaps (fun _ => none) link.ifindex tunnelLocalIps link.roles port config
      dnsInterceptIfindex).run .loaded).2.roleFlags = 0 := by
    rw [configureBpfMaps_roleFlags]
    simp
  rwa [configureBpfMaps, writeAll_unrefused fun _ => rfl] at hrun

/-- After a successful enable the classifiers stay in service at every point of
the main loop exactly if the kernel refuses, in each reload that takes effect,
one of the first two writes to every interface. A failed enable whose rollback
is not refused leaves every interface out of service. -/
theorem roleFlags_kept_iff {host : Host} {config : ApplianceConfig} {runtime : PreparedRuntime}
    (hbuild : build host config = .ok runtime) (refuse rollback : UInt32 → Option String)
    (signals : List Reload) :
    (∀ error failed, (enable refuse rollback).run runtime = (Outcome.fail error, failed) →
      (∀ ifindex, rollback ifindex = none) →
      ∀ link ∈ runtime.bpfLinks, (failed.pinned link.ifindex).roleFlags = 0) ∧
    ∀ served, (enable refuse rollback).run runtime = (.ok (), served) →
      ((∀ count, ∀ link ∈ runtime.bpfLinks,
        (((mainLoop (signals.take count)).run served).2.pinned link.ifindex).roleFlags =
          link.roles.flags) ↔
        ∀ signal ∈ signals, signal.TakesEffect config → Spares signal runtime.bpfLinks) := by
  obtain ⟨port, hready⟩ := build_ok hbuild
  have hoff : ∀ link ∈ runtime.bpfLinks, (runtime.pinned link.ifindex).roleFlags = 0 := by
    intro link hlink
    rw [hready.maps link hlink, freshMaps_roleFlags]
  have hends := enable_ends refuse rollback hready.distinct hoff
  have hport : tunnelPort runtime.config = .ok port := by rw [hready.loaded, hready.listens]
  constructor
  · intro error failed hfail hrollback
    rw [hfail] at hends
    exact hends hrollback
  · intro served hserved
    rw [hserved] at hends
    obtain ⟨halike, -, -, hon⟩ := hends
    constructor
    · intro hflags signal hsignal heffect link hlink
      by_contra hrefused
      obtain ⟨earlier, later, rfl⟩ := List.append_of_mem hsignal
      have hpoint := hflags (earlier.length + 1) link hlink
      have htake :
          (earlier ++ signal :: later).take (earlier.length + 1) = earlier ++ [signal] := by
        simp [List.take_append]
      obtain ⟨hbefore, happend⟩ := mainLoop_append halike hport earlier [signal]
      rw [htake, happend, mainLoop_cons hbefore hport] at hpoint
      have heffect' : signal.TakesEffect runtime.config := by rwa [hready.loaded]
      have hzero := reload_roleFlags hbefore hport hready.distinct heffect' hlink
      rw [if_neg hrefused] at hzero
      exact (hready.served link hlink).flags_ne_zero (hpoint.symm.trans hzero)
    · intro hspared count link hlink
      rw [mainLoop_spared halike hport hready.distinct ?_ hlink, hon link hlink]
      intro signal hsignal heffect
      exact hspared signal (List.mem_of_mem_take hsignal) (by rwa [← hready.loaded])

/-- A reload of an accepted file whose first write is refused leaves the interface in
service. -/
theorem roleFlags_kept_iff_sample :
    let signal := { Sample.reload Sample.config.ipPolicy with refuse := fun _ _ => some "EBUSY" }
    signal.TakesEffect Sample.config ∧ ∀ count, ∀ link ∈ Sample.prepared.bpfLinks,
      (((mainLoop (List.take count [signal])).run Sample.served).2.pinned link.ifindex).roleFlags =
        link.roles.flags := by
  intro signal
  refine ⟨.inr rfl, ((roleFlags_kept_iff Sample.build_prepared (fun _ => none)
    (fun _ => none) [signal]).2 Sample.served Sample.enable_served).mpr fun refused hrefused _ =>
      ?_⟩
  cases List.mem_singleton.mp hrefused
  exact fun _ _ => .inl rfl

/-- One reload of an accepted file, every write of which succeeds, takes the
interface out of service: the program passes every frame. -/
theorem roleFlags_lost_by_reload : Sample.config.accepted = true ∧
    PreparedRuntime.build Sample.host Sample.config = .ok Sample.prepared ∧
    (enable (fun _ => none) fun _ => none).run Sample.prepared = (.ok (), Sample.served) ∧
    ∃ link ∈ Sample.prepared.bpfLinks, link.roles = ⟨true, true⟩ ∧
      (Sample.served.pinned link.ifindex).roleFlags = link.roles.flags ∧
      ∀ maps, ((mainLoop [Sample.reload Sample.config.ipPolicy]).run Sample.served).2.pinned
        link.ifindex = maps →
        maps.roleFlags ≠ link.roles.flags ∧ ∀ frame, xdpFilterProg maps frame = (.pass, maps) := by
  have hzero : (((mainLoop [Sample.reload Sample.config.ipPolicy]).run Sample.served).2.pinned
      2).roleFlags = 0 := by decide +kernel
  refine ⟨by decide +kernel, Sample.build_prepared, Sample.enable_served, ⟨2, ⟨true, true⟩⟩,
    by decide +kernel, rfl, by decide +kernel, ?_⟩
  rintro maps rfl
  exact ⟨by rw [hzero]; decide, xdpFilterProg_disabled hzero⟩

end PreparedRuntime

end NewProxy
