import Mathlib.Data.List.Nodup

/-!
# Two channels for the halves of a request

Each channel shows a packet that was loaded for some request, and a handshake takes what it shows.
One request at a time is due. A channel that makes no second handshake before its next restart takes
no request twice, and where the due request leaves only after both of its halves, the two channels
take the same requests in the same order.
-/

namespace Channel

variable {ι : Type*}

/-- The request whose packet is shown, and those whose packets were taken before and after the last
restart. -/
structure Log (ι : Type*) where
  source : ι
  before : List ι
  since : List ι

namespace Log

def start (source : ι) : Log ι := ⟨source, [], []⟩

def taken (log : Log ι) : List ι := log.before ++ log.since

/-- One cycle: a handshake takes what was shown, then `source` is shown. -/
def step (log : Log ι) (accepts : Bool) (source : ι) : Log ι where
  source := source
  before := log.before
  since := log.since ++ if accepts then [log.source] else []

def restart (log : Log ι) : Log ι where
  source := log.source
  before := log.taken
  since := []

theorem step_since_eq_nil {log : Log ι} {accepts : Bool} {source : ι} :
    (log.step accepts source).since = [] ↔ log.since = [] ∧ accepts = false := by
  cases accepts <;> simp [step]

theorem taken_step (log : Log ι) (accepts : Bool) (source : ι) :
    (log.step accepts source).taken = log.taken ++ if accepts then [log.source] else [] := by
  simp [step, taken]

theorem taken_restart (log : Log ι) : log.restart.taken = log.taken := List.append_nil _

end Log

/-- What a channel does in one cycle. What it shows stays until the next handshake, and is replaced
by the packet of the request that is due after the cycle. -/
structure Moves (log : Log ι) (shown shown' : Prop) (due' : Option ι) (accepts : Bool) (source : ι) :
    Prop where
  takes : accepts = true → shown
  stays : shown → shown'
  keeps : shown → accepts = false → source = log.source
  loads : shown' → (source = log.source ∧ shown) ∨ due' = some source

/-- At most the request that is due has been taken since the restart, and nothing else is shown. -/
structure Pending (log : Log ι) (shown : Prop) (due : Option ι) : Prop where
  source : shown → due = some log.source
  since : log.since = [] ∨ (shown ∧ log.since = due.toList)

/-- One request has been taken since the restart, and it is still shown. -/
structure Settled (log : Log ι) (shown : Prop) (id : ι) : Prop where
  since : log.since = [id]
  shown : shown
  source : log.source = id

section Channel

variable {log : Log ι} {shown shown' : Prop} {due due' : Option ι} {accepts : Bool} {source id : ι}

theorem Moves.hold (haccepts : accepts = true → shown) :
    Moves log shown shown due accepts log.source where
  takes := haccepts
  stays h := h
  keeps _ _ := rfl
  loads h := .inl ⟨rfl, h⟩

theorem Pending.step (h : Pending log shown due) (hmoves : Moves log shown shown' due' accepts source)
    (hfirst : accepts = true → log.since = []) (hdue : ∀ id, due = some id → due' = some id) :
    Pending (log.step accepts source) shown' due' := by
  refine ⟨fun hshown' => ?_, ?_⟩
  · rcases hmoves.loads hshown' with ⟨hsame, hshown⟩ | hnew
    · rw [hdue _ (h.source hshown), ← hsame]
      rfl
    · exact hnew
  · unfold Log.step
    cases accepts with
    | true =>
        have hshown := hmoves.takes rfl
        right
        rw [hfirst rfl, hdue _ (h.source hshown)]
        exact ⟨hmoves.stays hshown, rfl⟩
    | false =>
        rcases h.since with hempty | ⟨hshown, hone⟩
        · left
          simp [hempty]
        · right
          have hsome := h.source hshown
          refine ⟨hmoves.stays hshown, ?_⟩
          simp [hone, hsome, hdue _ hsome]

theorem Settled.step (h : Settled log shown id) (hmoves : Moves log shown shown' due' accepts source)
    (hfirst : accepts = true → log.since = []) : Settled (log.step accepts source) shown' id := by
  have hquiet : accepts = false := by
    by_contra haccept
    have hempty := hfirst (by simpa using haccept)
    rw [h.since] at hempty
    cases hempty
  refine ⟨?_, hmoves.stays h.shown, (hmoves.keeps h.shown hquiet).trans h.source⟩
  simp [Log.step, hquiet, h.since]

theorem Pending.settled (h : Pending log shown due) (hid : due = some id) (hmem : id ∈ log.taken)
    (hfresh : id ∉ log.before) : Settled log shown id := by
  have hsince : id ∈ log.since := (List.mem_append.mp hmem).resolve_left hfresh
  rcases h.since with hempty | ⟨hshown, hone⟩
  · rw [hempty] at hsince
    cases hsince
  · have hsource := h.source hshown
    rw [hid] at hone hsource
    exact ⟨hone, hshown, (Option.some.inj hsource).symm⟩

end Channel

/-! ### The pair -/

/-- Since the restart the due request is pending on both channels, or both have taken one request,
the same. -/
inductive Paired (addr line : Log ι) (addrShown lineShown : Prop) (due : Option ι) : Prop
  | pending (addr : Pending addr addrShown due) (line : Pending line lineShown due)
  | settled (id : ι) (hfresh : id ∉ addr.before) (addr : Settled addr addrShown id)
      (line : Settled line lineShown id)

structure Sound (addr line : Log ι) (addrShown lineShown : Prop) (due : Option ι) : Prop where
  before : addr.before = line.before
  nodup : addr.before.Nodup
  fresh : ∀ id, due = some id → id ∉ addr.before
  paired : Paired addr line addrShown lineShown due

variable {addr line : Log ι} {addrShown lineShown addrShown' lineShown' : Prop}
  {due due' : Option ι} {addrAccepts lineAccepts : Bool} {addrSource lineSource id : ι}

namespace Sound

theorem start (addrSource lineSource : ι) (haddr : ¬addrShown) (hline : ¬lineShown) :
    Sound (.start addrSource) (.start lineSource) addrShown lineShown none where
  before := rfl
  nodup := List.nodup_nil
  fresh _ h := by cases h
  paired := .pending ⟨fun h => absurd h haddr, .inl rfl⟩ ⟨fun h => absurd h hline, .inl rfl⟩

/-- Both halves of the due request have been taken. -/
theorem settled (h : Sound addr line addrShown lineShown due) (hid : due = some id)
    (hmem : id ∈ addr.taken) (hmem' : id ∈ line.taken) :
    Settled addr addrShown id ∧ Settled line lineShown id := by
  have hfresh := h.fresh id hid
  have hfresh' : id ∉ line.before := h.before ▸ hfresh
  cases h.paired with
  | pending haddr hline =>
      exact ⟨haddr.settled hid hmem hfresh, hline.settled hid hmem' hfresh'⟩
  | settled other _ haddr hline =>
      have hsince : id ∈ addr.since := (List.mem_append.mp hmem).resolve_left hfresh
      rw [haddr.since, List.mem_singleton] at hsince
      rw [hsince]
      exact ⟨haddr, hline⟩

/-- One cycle. The due request stays due, or it leaves with both of its halves taken. -/
theorem step (h : Sound addr line addrShown lineShown due)
    (haddr : Moves addr addrShown addrShown' due' addrAccepts addrSource)
    (hline : Moves line lineShown lineShown' due' lineAccepts lineSource)
    (haddrFirst : addrAccepts = true → addr.since = [])
    (hlineFirst : lineAccepts = true → line.since = [])
    (hdue : ∀ id, due = some id → due' = some id ∨ (id ∈ addr.taken ∧ id ∈ line.taken))
    (hfresh : ∀ id, due' = some id → id ∉ addr.before) :
    Sound (addr.step addrAccepts addrSource) (line.step lineAccepts lineSource) addrShown'
      lineShown' due' := by
  refine ⟨h.before, h.nodup, hfresh, ?_⟩
  by_cases hleaves : ∃ id, due = some id ∧ id ∈ addr.taken ∧ id ∈ line.taken
  · obtain ⟨id, hid, hmem, hmem'⟩ := hleaves
    obtain ⟨hsettled, hsettled'⟩ := h.settled hid hmem hmem'
    exact .settled id (h.fresh id hid) (hsettled.step haddr haddrFirst)
      (hsettled'.step hline hlineFirst)
  · cases h.paired with
    | pending hpending hpending' =>
        have hstays : ∀ id, due = some id → due' = some id := fun id hid =>
          (hdue id hid).resolve_right fun hboth => hleaves ⟨id, hid, hboth⟩
        exact .pending (hpending.step haddr haddrFirst hstays)
          (hpending'.step hline hlineFirst hstays)
    | settled id hid hsettled hsettled' =>
        exact .settled id hid (hsettled.step haddr haddrFirst) (hsettled'.step hline hlineFirst)

theorem since_eq (h : Sound addr line addrShown lineShown due) :
    ∃ last : Option ι, (∀ id, last = some id → id ∉ addr.before) ∧
      (addr.since = [] ∨ addr.since = last.toList) ∧
      (line.since = [] ∨ line.since = last.toList) := by
  cases h.paired with
  | pending haddr hline =>
      exact ⟨due, h.fresh, haddr.since.imp_right fun hone => hone.2,
        hline.since.imp_right fun hone => hone.2⟩
  | settled id hid haddr hline =>
      refine ⟨some id, ?_, .inr haddr.since, .inr hline.since⟩
      rintro _ ⟨⟩
      exact hid

theorem swap (h : Sound addr line addrShown lineShown due) :
    Sound line addr lineShown addrShown due := by
  have hbefore := h.before
  refine ⟨hbefore.symm, hbefore ▸ h.nodup, hbefore ▸ h.fresh, ?_⟩
  cases h.paired with
  | pending haddr hline => exact .pending hline haddr
  | settled id hid haddr hline => exact .settled id (hbefore ▸ hid) hline haddr

theorem nodup_taken (h : Sound addr line addrShown lineShown due) : addr.taken.Nodup := by
  obtain ⟨last, hfresh, hsince, -⟩ := h.since_eq
  unfold Log.taken
  rcases hsince with hempty | hlast
  · rw [hempty, List.append_nil]
    exact h.nodup
  · rw [hlast]
    cases last with
    | none => simpa using h.nodup
    | some id =>
        rw [Option.toList_some, ← List.concat_eq_append]
        exact h.nodup.concat (hfresh id rfl)

theorem pairs (h : Sound addr line addrShown lineShown due) {n : Nat} {a b : ι}
    (ha : addr.taken[n]? = some a) (hb : line.taken[n]? = some b) : a = b := by
  obtain ⟨last, -, hsince, hsince'⟩ := h.since_eq
  unfold Log.taken at ha hb
  rw [← h.before] at hb
  by_cases hn : n < addr.before.length
  · rw [List.getElem?_append_left hn] at ha hb
    exact Option.some.inj (ha.symm.trans hb)
  · rw [List.getElem?_append_right (by omega)] at ha hb
    have hmem : ∀ {l : List ι} {x : ι}, l = [] ∨ l = last.toList → x ∈ l → last = some x := by
      rintro l x (rfl | rfl) hx
      · cases hx
      · exact Option.mem_toList.mp hx
    have hlast := hmem hsince (List.mem_of_getElem? ha)
    have hlast' := hmem hsince' (List.mem_of_getElem? hb)
    exact Option.some.inj (hlast.symm.trans hlast')

/-- A second handshake before the restart takes the same request again. -/
theorem not_nodup_step (h : Sound addr line addrShown lineShown due) (hshown : addrShown)
    (hsecond : addr.since ≠ []) (source : ι) : ¬(addr.step true source).taken.Nodup := by
  have hmem : addr.source ∈ addr.since := by
    cases h.paired with
    | pending haddr hline =>
        rw [(haddr.since.resolve_left hsecond).2, haddr.source hshown]
        exact List.mem_singleton_self _
    | settled id hid haddr hline =>
        rw [haddr.since, haddr.source]
        exact List.mem_singleton_self _
  rw [Log.taken_step, if_pos rfl]
  intro hnodup
  exact List.disjoint_of_nodup_append hnodup (List.mem_append_right _ hmem)
    (List.mem_singleton_self _)

theorem restart (h : Sound addr line addrShown lineShown due)
    (hboth : addr.since = [] ↔ line.since = []) (haddr : ¬addrShown') (hline : ¬lineShown') :
    Sound addr.restart line.restart addrShown' lineShown' none := by
  have htaken : addr.taken = line.taken := by
    obtain ⟨last, -, hsince, hsince'⟩ := h.since_eq
    unfold Log.taken
    rw [h.before]
    by_cases hempty : addr.since = []
    · rw [hempty, hboth.mp hempty]
    · rw [hsince.resolve_left hempty, hsince'.resolve_left (mt hboth.mpr hempty)]
  exact ⟨htaken, h.nodup_taken, by simp, .pending ⟨fun hs => absurd hs haddr, .inl rfl⟩
    ⟨fun hs => absurd hs hline, .inl rfl⟩⟩

end Sound

end Channel
