import FieldWalk.Proofs.Playback.Live
import Mathlib.Data.List.Induction
/-!
# Starting from a callback

A replay may be started from the callback of the end, and then the old one is over and the new one
begins at its first frame. A start from the callback of a frame is carried out in the middle of a
tick of the old replay, which then goes on behind it: it asks for a tick of its own, or ends the new
replay and leaves its tick pending. Either way a tick is pending that the player has not stored, so
replays are told apart exactly if no frame is answered with a start, and no start from outside fails half
way.
-/

namespace FieldWalk.Playback

open Numeral

variable {η σ : Type} {H : Host η} {c : Callbacks ℚ σ}

/-- The order begins a replay. -/
def Command.Starts : Command ℚ → Prop
  | .start count fps => 0 < fps.toScalar ∧ overlong count = false
  | .cancel => False

theorem Command.Starts.valid {k : Command ℚ} (h : k.Starts) : k.Valid := by
  cases k with
  | start count fps => exact h
  | cancel => exact h.elim

theorem Callbacks.Give.valid_of_starts (hc : c.Give Command.Starts) : c.Give Command.Valid :=
  hc.mono fun _ => Command.Starts.valid

/-- No frame was answered with an order. -/
def FramesSilent (xs : List (Exchange ℚ)) : Prop :=
  ∀ x ∈ xs, x.event ≠ .finished → x.orders = []

instance (xs : List (Exchange ℚ)) : Decidable (FramesSilent xs) :=
  inferInstanceAs (Decidable (∀ x ∈ xs, x.event ≠ .finished → x.orders = []))

theorem framesSilent_append {xs ys : List (Exchange ℚ)} :
    FramesSilent (xs ++ ys) ↔ FramesSilent xs ∧ FramesSilent ys := by
  unfold FramesSilent
  simp only [List.mem_append, or_imp, forall_and]

namespace Player

/-! ## Stray ticks -/

/-- A tick is pending that is not the stored one. -/
def Stray (H : Host η) (p : Player ℚ η σ) : Prop :=
  ∃ h ∈ H.pending p.host, p.handle ≠ some h

section Stray

variable {p : Player ℚ η σ}

theorem Stray.not_oneLive (hp : Stray H p) : ¬ OneLive H p := by
  rintro ⟨hpending, -⟩
  rcases hp with ⟨h, hh, hne⟩
  rw [hpending, Option.mem_toFinset] at hh
  exact hne hh

/-- A tick that is pending when another one is asked for goes astray. -/
theorem stray_requested (hs : H.Sound p.host) {h : ℕ} (hh : h ∈ H.pending p.host) :
    Stray H (p.requested H.toTickSource) := by
  refine ⟨h, ?_, ?_⟩
  · show h ∈ H.pending (H.request p.host).2
    rw [H.pending_request hs]
    exact Finset.mem_insert_of_mem hh
  · intro he
    apply H.fresh hs
    rw [show (H.request p.host).1 = h from Option.some.inj he]
    exact hh

/-- No order drops a stray tick. -/
theorem Stray.obeyed (hp : Stray H p) (hs : H.Sound p.host) (k : Command ℚ) :
    Stray H (p.obeyed H.toTickSource k) := by
  rcases hp with ⟨h, hh, hne⟩
  have hkept : h ∈ H.pending (p.cancelled H.toTickSource).host := by
    rw [pending_cancelled hs]
    simp [hh, hne]
  cases k with
  | start count fps =>
    exact stray_requested (p := p.opened H.toTickSource count fps) (sound_cancelled hs) hkept
  | cancel => exact ⟨h, hkept, by simp [Player.obeyed]⟩

theorem Stray.foldl (hp : Stray H p) (hs : H.Sound p.host) (ks : List (Command ℚ)) :
    Stray H (ks.foldl (Player.obeyed H.toTickSource) p) := by
  induction ks generalizing p with
  | nil => exact hp
  | cons k ks ih => exact ih (hp.obeyed hs k) (sound_obeyed hs k)

/-- Of several starts the last one counts. -/
theorem foldl_begun (source : TickSource η) {ks : List (Command ℚ)} (hks : ∀ k ∈ ks, k.Starts)
    (hne : ks ≠ []) :
    ∃ q : Player ℚ η σ, ∃ count fps, ks.getLast? = some (.start count fps) ∧
      ks.foldl (Player.obeyed source) p = q.begun source count fps := by
  rcases List.eq_nil_or_concat ks with rfl | ⟨l, k, rfl⟩
  · exact absurd rfl hne
  · cases k with
    | start count fps =>
      refine ⟨l.foldl (Player.obeyed source) p, count, fps, by simp, ?_⟩
      rw [List.concat_eq_append, List.foldl_append]
      rfl
    | cancel => exact (hks .cancel (by simp)).elim

end Stray

/-! ## Ticks that are answered with starts -/

section Ticks

variable {p : Player ℚ η (σ × List (Exchange ℚ))}

/-- A call that is answered with starts leaves the replay that the last of them began. -/
theorem answered_of_start (hc : c.Give Command.Starts) (source : TickSource η) {e : Event}
    (hne : p.orders c e ≠ []) :
    ∃ q : Player ℚ η (σ × List (Exchange ℚ)), ∃ count fps,
      (p.orders c e).getLast? = some (.start count fps) ∧
      p.answered source c e = q.begun source count fps :=
  foldl_begun source (orders_of_give _ hc e) hne

/-- A replay started from the callback of a frame has its tick pending when the old one goes on. -/
theorem pending_of_start (hc : c.Give Command.Starts) (hs : H.Sound p.host)
    (hp : H.pending p.host = ∅) {time : ℚ} (hne : p.orders c (.frame (p.index time)) ≠ []) :
    ∃ h, h ∈ H.pending (p.shown H.toTickSource c time).host := by
  have hne' : (p.showing time).orders c (.frame (p.index time)) ≠ [] := by
    rw [showing_eq]
    exact hne
  have hlive : OneLive H (p.shown H.toTickSource c time) := by
    unfold shown answered
    apply oneLive_foldl
    · simpa [told] using hs
    · simp [told, hp]
    · exact hne'
  rcases answered_of_start hc H.toTickSource hne' with ⟨q, count, fps, -, hq⟩
  have hhandle : (p.shown H.toTickSource c time).handle.isSome := by
    unfold shown
    rw [hq]
    rfl
  rcases Option.isSome_iff_exists.1 hhandle with ⟨h, hh⟩
  exact ⟨h, by simp [hlive.pending, hh]⟩

/-- A start from the callback of a frame sets a tick astray. -/
theorem stray_ticked (hc : c.Give Command.Starts) (hs : H.Sound p.host)
    (hp : H.pending p.host = ∅) {time : ℚ} (hne : p.orders c (.frame (p.index time)) ≠ []) :
    Stray H (p.ticked H.toTickSource c time) := by
  have hs' := sound_shown (c := c) hs time
  rcases pending_of_start hc hs hp hne with ⟨h, hh⟩
  unfold ticked
  split
  · have hstray : Stray H ((p.shown H.toTickSource c time).stopped.told c .finished) :=
      ⟨h, hh, by simp [told, stopped]⟩
    exact hstray.foldl hs' _
  · exact stray_requested hs' hh

/-- A tick that is answered with starts at most leaves one live replay or none exactly if its frame
is answered with none. -/
theorem OneLive.ticked_iff (hp : OneLive H p) (hc : c.Give Command.Starts) (hs : H.Sound p.host)
    {h : ℕ} (hh : h ∈ H.pending p.host) (time : ℚ) :
    OneLive H ((p.fired H h).ticked H.toTickSource c time) ↔
      (p.fired H h).orders c (.frame ((p.fired H h).index time)) = [] := by
  constructor
  · intro hlive
    by_contra hne
    exact (stray_ticked hc (H.sound_fire h hs) (pending_fired hp.pending hs hh) hne).not_oneLive
      hlive
  · exact hp.stored.ticked hs hh

theorem framesSilent_ticked {q : Player ℚ η (σ × List (Exchange ℚ))} {i : ℤ}
    {ks : List (Command ℚ)} {P : Prop} [Decidable P] :
    FramesSilent (⟨.frame i, ks⟩ :: if P then q.exchange c .finished else []) ↔ ks = [] := by
  have hend : FramesSilent (if P then q.exchange c .finished else []) := by
    intro x hx hne
    split at hx
    · rw [(eq_of_mem_exchange hx).1] at hne
      exact absurd rfl hne
    · exact absurd hx List.not_mem_nil
  constructor
  · intro h
    exact h _ List.mem_cons_self (by simp)
  · intro h x hx hne
    rcases List.mem_cons.1 hx with rfl | hx
    · exact h
    · exact hend x hx hne

theorem OneLive.step_iff (hp : OneLive H p) (hc : c.Give Command.Starts) (hf : Fit H p)
    {o : Operation ℚ} {new : List (Exchange ℚ)} (h : (p.step H c o).heard = p.heard ++ new) :
    OneLive H (p.step H c o) ↔ FramesSilent new ∧ ¬ o.Breaks := by
  have ho := step_outcome hc.valid_of_starts hf o
  generalize p.step H c o = q at ho h ⊢
  have hnil : q.heard = p.heard → FramesSilent new := by
    intro hq
    rw [hq] at h
    rw [List.self_eq_append_right.1 h]
    exact nofun
  cases ho with
  | @obeyed k hk =>
    have hbreaks : ¬ (Operation.order k).Breaks := by
      cases k with
      | start count fps =>
        rintro ⟨-, hl⟩
        rw [hk.2] at hl
        cases hl
      | cancel => exact id
    exact iff_of_true (oneLive_obeyed hf.sound hp.pending.le k)
      ⟨hnil (heard_obeyed _ p k), hbreaks⟩
  | refused hr => exact iff_of_true hp ⟨hnil rfl, fun hb => absurd hb.1 (not_lt.2 hr)⟩
  | broken hr hl => exact iff_of_false (not_oneLive_opened _ _ _) fun hb => hb.2 ⟨hr, hl⟩
  | absent => exact iff_of_true hp ⟨hnil rfl, id⟩
  | @ticked n time hn =>
    rw [heard_ticked] at h
    rw [hp.ticked_iff hc hf.sound hn, ← List.append_cancel_left h, framesSilent_ticked]
    exact (and_iff_left id).symm

end Ticks

/-! ## The first frame of a replay -/

/-- No frame has been shown and no time has passed. -/
structure Fresh (p : Player ℚ η σ) : Prop where
  frame : p.frame = 0
  debt : p.debt = 0
  last : p.last = none

theorem fresh_opened (p : Player ℚ η σ) (source : TickSource η) (count : ℤ) (fps : Number ℚ) :
    Fresh (p.opened source count fps) := ⟨rfl, rfl, rfl⟩

theorem fresh_begun (p : Player ℚ η σ) (source : TickSource η) (count : ℤ) (fps : Number ℚ) :
    Fresh (p.begun source count fps) := ⟨rfl, rfl, rfl⟩

theorem Fresh.obeyed {p : Player ℚ η σ} (hp : Fresh p) (source : TickSource η) (k : Command ℚ) :
    Fresh (p.obeyed source k) := by
  cases k with
  | start count fps => exact fresh_begun p source count fps
  | cancel =>
    show Fresh (p.cancelled source)
    unfold cancelled
    split <;> exact ⟨hp.frame, hp.debt, hp.last⟩

theorem Fresh.index {p : Player ℚ η σ} (hp : Fresh p) (time : ℚ) : p.index time = 0 := by
  have hdebt : (p.clocked time).debt = 0 := by
    simp [clocked, hp.debt, hp.last]
  have hframe : (p.paid time).frame = 0 := by
    unfold paid
    rw [hdebt, zero_div, Int.floor_zero]
    exact hp.frame
  unfold Player.index
  rw [hframe]
  split <;> omega

section Fresh

variable {p : Player ℚ η (σ × List (Exchange ℚ))}

/-- Whatever is done to a fresh player, its first frame is heard before anything else. -/
theorem Fresh.after (hp : Fresh p) (hc : c.Give Command.Valid) (hf : Fit H p)
    (later : List (Operation ℚ)) :
    (p.after H c later).heard = p.heard ∨
      ∃ ks more, (p.after H c later).heard = p.heard ++ ⟨.frame 0, ks⟩ :: more := by
  induction later generalizing p with
  | nil => exact .inl rfl
  | cons o later ih =>
    have hf' := hf.step hc o
    have ho := step_outcome hc hf o
    rw [after_cons]
    generalize p.step H c o = q at ho hf' ⊢
    cases ho with
    | @obeyed k =>
      rw [← heard_obeyed H.toTickSource p k]
      exact ih (hp.obeyed _ k) hf'
    | @broken count fps =>
      rw [← heard_obeyed H.toTickSource p (.start count fps)]
      exact ih (fresh_opened p _ count fps) hf'
    | refused | absent => exact ih hp hf'
    | @ticked n time =>
      have hfired : Fresh (p.fired H n) := ⟨hp.frame, hp.debt, hp.last⟩
      rcases heard_after hc hf' later with ⟨more, hmore⟩
      rw [hmore, heard_ticked, hfired.index, List.append_assoc]
      exact .inr ⟨_, _, rfl⟩

/-- A start from the callback of the end begins the new replay when the old one is over. -/
theorem restarted (hc : c.Give Command.Starts) (hf : Fit H p) {o : Operation ℚ}
    {new : List (Exchange ℚ)} (h : (p.step H c o).heard = p.heard ++ new)
    (hsilent : FramesSilent new) (hstart : ∃ x ∈ new, x.orders ≠ []) :
    (∃ i ks count fps, new = [⟨.frame i, []⟩, ⟨.finished, ks⟩] ∧
      ks.getLast? = some (.start count fps) ∧ (p.step H c o).count = count ∧
      (p.step H c o).interval = 1000 / fps.toScalar) ∧
    (p.step H c o).running = true ∧ Fresh (p.step H c o) := by
  rcases hstart with ⟨x, hx, hne⟩
  rcases heard_step hc.valid_of_starts hf o with hsame | ⟨n, time, -, -, hq⟩
  · rw [hsame] at h
    rw [List.self_eq_append_right.1 h] at hx
    exact absurd hx List.not_mem_nil
  · rw [hq, heard_ticked] at h
    have hnew := List.append_cancel_left h
    have hframe := framesSilent_ticked.1 (hnew ▸ hsilent)
    rw [hframe] at hnew
    have hxend : x ∈ (if (p.fired H n).count - 1 ≤ (p.fired H n).index time then
        ((p.fired H n).shown H.toTickSource c time).stopped.exchange c .finished else []) := by
      rw [← hnew] at hx
      rcases List.mem_cons.1 hx with rfl | hx
      · exact absurd rfl hne
      · exact hx
    split at hxend
    · rename_i hl
      rcases eq_of_mem_exchange hxend with ⟨rfl, hend⟩
      rw [if_pos hl, hend] at hnew
      rcases answered_of_start hc H.toTickSource hne with ⟨q, count, fps, hlast, hbegun⟩
      have hstep : p.step H c o = q.begun H.toTickSource count fps := by
        rw [hq, ← hbegun]
        unfold ticked
        rw [if_pos hl]
      rw [hstep]
      exact ⟨⟨_, _, count, fps, hnew.symm, hlast, rfl, rfl⟩, rfl, fresh_begun _ _ _ _⟩
    · exact absurd hxend List.not_mem_nil

end Fresh

end Player

/-- Through a run there is one live replay or none exactly if no frame is answered with a start and no
start from outside fails half way. -/
theorem oneLive_run_iff (hc : c.Give Command.Starts) (s : σ) (ops : List (Operation ℚ)) :
    (∀ before, before <+: ops → Player.OneLive H (run H c s before)) ↔
      FramesSilent (run H c s ops).heard ∧ ∀ o ∈ ops, ¬ o.Breaks := by
  induction ops using List.reverseRecOn with
  | nil =>
    refine iff_of_true ?_ ⟨nofun, nofun⟩
    intro before hb
    rw [List.prefix_nil.1 hb]
    exact Player.oneLive_new _
  | append_singleton ops o ih =>
    have hf : Player.Fit H (run H c s ops) := fit_run hc.valid_of_starts s ops
    rcases Player.heard_grows hc.valid_of_starts hf o with ⟨new, hnew⟩
    have hstep : run H c s (ops ++ [o]) = (run H c s ops).step H c o := run_append H c s ops [o]
    rw [hstep, hnew, framesSilent_append, List.forall_mem_append, List.forall_mem_singleton,
      and_and_and_comm, ← ih]
    constructor
    · intro h
      have hops : ∀ before, before <+: ops → Player.OneLive H (run H c s before) :=
        fun before hb => h before (hb.trans (List.prefix_append _ _))
      refine ⟨hops, ((hops ops List.prefix_rfl).step_iff hc hf hnew).1 ?_⟩
      rw [← hstep]
      exact h _ List.prefix_rfl
    · rintro ⟨hops, hlast⟩ before hb
      rcases List.prefix_concat_iff.1 hb with rfl | hb
      · rw [hstep]
        exact ((hops ops List.prefix_rfl).step_iff hc hf hnew).2 hlast
      · exact hops before hb

/-- Callbacks that ask for one more replay when the first one ends. -/
def Callbacks.encore (k : Command ℚ) : Callbacks ℚ Bool :=
  ⟨fun _ s => ([], s), some fun s => (if s then [] else [k], true)⟩

theorem Callbacks.encore_starts {k : Command ℚ} (hk : k.Starts) :
    (encore k).Give Command.Starts := by
  intro e f s hf o ho
  cases e with
  | frame i =>
    cases hf
    exact absurd ho List.not_mem_nil
  | finished =>
    cases hf
    cases s with
    | false => rwa [List.mem_singleton.1 ho]
    | true => exact absurd ho List.not_mem_nil

end FieldWalk.Playback
