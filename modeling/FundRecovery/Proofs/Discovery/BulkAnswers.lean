import FundRecovery.Discovery.Scenario
import FundRecovery.Proofs.Discovery.BulkReports
import FundRecovery.Proofs.Discovery.Conduct
import FundRecovery.Proofs.Program.Exchanges
import FundRecovery.Proofs.Program.Relations

/-!
# Bulk answers are read by address

The answers of a bulk backend may have any entries in any order. What counts of them is looked up by
address.

* `LookedUp`: what a bulk lookup asks for and comes to. `lookedUp_recorded`: it does.
* `Rearranges counts`: a list in another order, with other entries that do not count.
* `Environment.Rearranged`: an environment whose bulk backend gives the answers of another one
  rearranged, and which does not differ from it otherwise.
* `alike_bulkLookup`, `alike_scanBatches`, `alike_scanRange`: nothing else comes of them.
* `bulk_answers_by_address`: both together.
-/

namespace FundRecovery.Discovery

variable {σ σ' : Type}

/-! ## What a lookup asks and comes to -/

/-- The address was asked for and is reported active. -/
def ReportedActive (addresses : List String) (activity : List AddressActivity) (address : String) :
    Prop :=
  address ∈ addresses ∧ ∃ r ∈ activity, r.address = address ∧ r.hasActivity = true

namespace BulkView

/-- The view has each address that was asked for once, with the outputs of the last entry that was
fetched for it, or none if there is no such entry, and no other address. -/
structure HasLast (asked : List String) (fetched : List AddressUtxos) (view : BulkView) : Prop where
  nodup : (view.entries.map (·.1)).Nodup
  addresses : ∀ address, address ∈ view.entries.map (·.1) ↔ address ∈ asked
  utxos : ∀ address, view.find? address =
    if address ∈ asked then
      some (((fetched.filter (·.address = address)).getLast?.map (·.utxos)).getD [])
    else none

theorem map_fst_foldl_update (view : BulkView) (fetched : List AddressUtxos) :
    (fetched.foldl update view).entries.map (·.1) = view.entries.map (·.1) := by
  induction fetched generalizing view with
  | nil => rfl
  | cons f fetched ih =>
    rw [List.foldl_cons, ih, update, List.map_map]
    refine List.map_congr_left fun e _ => ?_
    rw [Function.comp_apply]
    split <;> rfl

theorem map_fst_ofActive (active : List String) :
    (ofActive active).entries.map (·.1) = (firstOccurrences id active).map id := by
  rw [ofActive, List.map_map]
  rfl

/-- The last entry for an address counts. -/
theorem lastFetched_eq_getLast (address : String) (fetched : List AddressUtxos)
    (held : List Utxo) :
    lastFetched address fetched held =
      ((fetched.filter (·.address = address)).getLast?.map (·.utxos)).getD held := by
  induction fetched generalizing held with
  | nil => rfl
  | cons f fetched ih =>
    rw [lastFetched, List.foldl_cons]
    change lastFetched address fetched _ = _
    rw [ih, List.filter_cons]
    by_cases ha : f.address = address
    · simp only [ha, decide_true, if_true, List.getLast?_cons]
      cases (fetched.filter (·.address = address)).getLast? <;> rfl
    · simp only [ha, decide_false, if_false, Bool.false_eq_true]

theorem hasLast_foldl_update (asked : List String) (fetched : List AddressUtxos) :
    (fetched.foldl update (.ofActive asked)).HasLast asked fetched where
  nodup := by
    rw [map_fst_foldl_update, map_fst_ofActive]
    exact nodup_map_firstOccurrences id asked
  addresses address := by
    rw [map_fst_foldl_update, map_fst_ofActive, mem_map_firstOccurrences, List.map_id]
  utxos address := by
    rw [find?_foldl_update, find?_ofActive]
    split
    · rw [Option.map_some, lastFetched_eq_getLast]
    · rfl

end BulkView

/-- What a lookup of `addresses` exchanges with the backend and comes to. There is a fetch only if
some address is reported active, and then it asks for these addresses. -/
inductive LookedUp (addresses : List String) :
    List (Exchange interface) → Except Crash (Except ChainError BulkView) → Prop where
  | crashed (e : Crash) :
    LookedUp addresses [⟨.call (.checkActivity addresses), .error e⟩] (.error e)
  | unchecked (e : ChainError) :
    LookedUp addresses [⟨.call (.checkActivity addresses), .ok (.error e)⟩] (.ok (.error e))
  | idle {activity : List AddressActivity}
      (hnone : ∀ address, ¬ ReportedActive addresses activity address) :
    LookedUp addresses [⟨.call (.checkActivity addresses), .ok (.ok activity)⟩] (.ok (.ok .empty))
  | fetched {activity : List AddressActivity} {asked : List String}
      {answer : Except Crash (Except ChainError (List AddressUtxos))}
      {r : Except Crash (Except ChainError BulkView)} (hsome : asked ≠ [])
      (hasked : ∀ address, address ∈ asked ↔ ReportedActive addresses activity address)
      (hview : Agree (Agree fun fetched view => BulkView.HasLast asked fetched view) answer r) :
    LookedUp addresses
      [⟨.call (.checkActivity addresses), .ok (.ok activity)⟩,
        ⟨.call (.fetchUtxos asked), answer⟩] r

theorem lookedUp_of_exchanges {addresses : List String} {t : List (Exchange interface)}
    {r : Except Crash (Except ChainError BulkView)}
    (h : (bulkLookup addresses).Exchanges t r) : LookedUp addresses t r := by
  obtain ⟨e, rfl, hcheck⟩ | ⟨checked, u, v, rfl, hcheck, hrest⟩ := Program.exchanges_bind.mp h
  · rw [Program.exchanges_request.mp hcheck]
    exact .crashed e
  rw [Program.exchanges_request.mp hcheck]
  cases checked with
  | error e =>
    obtain ⟨rfl, rfl⟩ := hrest
    exact .unchecked e
  | ok activity =>
    have hactive (address : String) : address ∈ activeAddresses addresses activity ↔
        ReportedActive addresses activity address := mem_activeAddresses
    dsimp only at hrest
    split at hrest
    case isTrue hnone =>
      obtain ⟨rfl, rfl⟩ := hrest
      refine .idle fun address ha => ?_
      rw [← hactive, List.isEmpty_iff.mp hnone] at ha
      exact List.not_mem_nil ha
    case isFalse hsome =>
      rw [List.isEmpty_iff] at hsome
      obtain ⟨e, rfl, hfetch⟩ | ⟨got, u', v', rfl, hfetch, hend⟩ :=
        Program.exchanges_bind.mp hrest
      · rw [Program.exchanges_request.mp hfetch]
        exact .fetched hsome hactive (.error e)
      · rw [Program.exchanges_request.mp hfetch]
        cases got with
        | error e =>
          obtain ⟨rfl, rfl⟩ := hend
          exact .fetched hsome hactive (.ok (.error e))
        | ok fetched =>
          obtain ⟨rfl, rfl⟩ := hend
          exact .fetched hsome hactive (.ok (.ok (BulkView.hasLast_foldl_update _ _)))

/-- A lookup under any handler, however it goes. -/
theorem lookedUp_recorded (addresses : List String) (h : Handler interface σ) (s : σ) :
    LookedUp addresses ((bulkLookup addresses).recorded h s).2
      ((bulkLookup addresses).recorded h s).1 :=
  lookedUp_of_exchanges (Program.exchanges_recorded h _ s)

/-! ## Rearranged answers -/

/-- The second list is the first in another order, without some of its entries that do not count,
and with others that do not count either. -/
inductive Rearranges {α : Type} (counts : α → Prop) : List α → List α → Prop where
  | reorder {as bs : List α} (h : as.Perm bs) : Rearranges counts as bs
  | drop {a : α} (as : List α) (h : ¬ counts a) : Rearranges counts (a :: as) as
  | add {a : α} (as : List α) (h : ¬ counts a) : Rearranges counts as (a :: as)
  | trans {as bs cs : List α} (h : Rearranges counts as bs) (h' : Rearranges counts bs cs) :
    Rearranges counts as cs

namespace Rearranges

variable {α : Type} {counts : α → Prop} {as bs : List α}

theorem cons (a : α) (h : Rearranges counts as bs) : Rearranges counts (a :: as) (a :: bs) := by
  induction h with
  | reorder h => exact .reorder (h.cons a)
  | @drop b as hb => exact .trans (.reorder (.swap b a as)) (.drop _ hb)
  | @add b as hb => exact .trans (.add _ hb) (.reorder (.swap a b as))
  | trans _ _ ih ih' => exact .trans ih ih'

variable [DecidablePred counts]

/-- The entries that count are left. -/
theorem filter_perm (h : Rearranges counts as bs) : (as.filter counts).Perm (bs.filter counts) := by
  induction h with
  | reorder h => exact h.filter _
  | drop as ha => rw [List.filter_cons_of_neg (by simpa using ha)]
  | add as ha => rw [List.filter_cons_of_neg (by simpa using ha)]
  | trans _ _ ih ih' => exact ih.trans ih'

theorem filter (as : List α) : Rearranges counts as (as.filter counts) := by
  induction as with
  | nil => exact .reorder .nil
  | cons a as ih =>
    by_cases ha : counts a
    · rw [List.filter_cons_of_pos (by simpa using ha)]
      exact ih.cons a
    · rw [List.filter_cons_of_neg (by simpa using ha)]
      exact .trans (.drop as ha) ih

end Rearranges

/-- The second answer is the first, or is the first rearranged if that has one entry at most for an
address. -/
def RearrangesOnce {α : Type} (address : α → String) (counts : α → Prop) (as bs : List α) : Prop :=
  as = bs ∨ (as.map address).Nodup ∧ Rearranges counts as bs

theorem eq_of_perm_of_length_le_one {α : Type} {as bs : List α} (h : as.Perm bs)
    (hlen : as.length ≤ 1) : as = bs := by
  match as with
  | [] => exact h.nil_eq
  | [a] => exact h.singleton_eq
  | _ :: _ :: _ => simp at hlen

/-- Two replies: one answer as `R` relates it to the other, and the same besides. -/
structure Reply.Matches {α β : Type} (S : σ → σ' → Prop) (R : α → β → Prop) (r : Reply α σ)
    (r' : Reply β σ') : Prop where
  answer : Agree R r.answer r'.answer
  state : S r.state r'.state
  cancels : r.cancels = r'.cancels

/-- The second environment answers as the first does, with states that `S` relates, except that an
answer of its bulk backend may be rearranged where the first has one entry at most for an address.
Of a check the entries of active addresses count that were asked for, of a fetch those of addresses
that were asked for. A fetch may be asked for its addresses in another order. -/
structure Environment.Rearranged (env : Environment σ) (env' : Environment σ')
    (S : σ → σ' → Prop) : Prop where
  looks : ∀ {s s'}, S s s' → (env.interrupt s).1 = (env'.interrupt s').1 ∧
    S (env.interrupt s).2 (env'.interrupt s').2
  single : ∀ {c s s'}, c.isBulk = false → S s s' → (env.reply c s).Matches S Eq (env'.reply c s')
  activity : ∀ {addresses s s'}, S s s' → (env.reply (.checkActivity addresses) s).Matches S
    (Agree (RearrangesOnce (·.address) fun a => a.hasActivity = true ∧ a.address ∈ addresses))
    (env'.reply (.checkActivity addresses) s')
  fetch : ∀ {asked asked' s s'}, asked = asked' ∨ asked.Nodup ∧ asked.Perm asked' → S s s' →
    (env.reply (.fetchUtxos asked) s).Matches S
      (Agree (RearrangesOnce (·.address) (·.address ∈ asked)))
      (env'.reply (.fetchUtxos asked') s')

/-- Worlds with related states. -/
structure World.Matches (S : σ → σ' → Prop) (w : World σ) (w' : World σ') : Prop where
  state : S w.state w'.state
  cancelled : w.cancelled = w'.cancelled
  tasks : w.tasks = w'.tasks

/-- Views that hold the same for each address. -/
def BulkView.Same (view view' : BulkView) : Prop :=
  ∀ address, view.find? address = view'.find? address

namespace BulkView

variable {view view' : BulkView}

theorem Same.erase (h : view.Same view') (address : String) :
    (view.erase address).Same (view'.erase address) := by
  intro other
  by_cases ho : other = address
  · rw [ho, find?_erase_self, find?_erase_self]
  · rw [find?_erase_ne ho, find?_erase_ne ho, h other]

/-- The entries for one address that are left of a list with one entry at most for an address. -/
theorem filter_address_eq {address : String} {fetched fetched' : List AddressUtxos}
    (hone : (fetched.map (·.address)).Nodup)
    (h : (fetched.filter (·.address = address)).Perm (fetched'.filter (·.address = address))) :
    fetched.filter (·.address = address) = fetched'.filter (·.address = address) := by
  refine eq_of_perm_of_length_le_one h ?_
  have hcopies : (fetched.filter (·.address = address)).map (·.address) =
      List.replicate (fetched.filter (·.address = address)).length address := by
    refine List.eq_replicate_iff.mpr ⟨List.length_map _, fun a ha => ?_⟩
    obtain ⟨f, hf, rfl⟩ := List.mem_map.mp ha
    exact of_decide_eq_true (List.mem_filter.mp hf).2
  have hnodup : ((fetched.filter (·.address = address)).map (·.address)).Nodup :=
    (List.filter_sublist.map _).nodup hone
  rw [hcopies] at hnodup
  exact List.nodup_replicate.mp hnodup

/-- The order of a fetch with one entry per address makes no difference, nor do entries for other
addresses. -/
theorem same_foldl_update {asked asked' : List String} {fetched fetched' : List AddressUtxos}
    (hasked : asked.Perm asked')
    (h : RearrangesOnce (·.address) (·.address ∈ asked) fetched fetched') :
    (fetched.foldl update (.ofActive asked)).Same
      (fetched'.foldl update (.ofActive asked')) := by
  intro address
  rw [(hasLast_foldl_update asked fetched).utxos, (hasLast_foldl_update asked' fetched').utxos]
  by_cases ha : address ∈ asked
  · rw [if_pos ha, if_pos (hasked.mem_iff.mp ha)]
    have heq : fetched.filter (·.address = address) = fetched'.filter (·.address = address) := by
      obtain rfl | ⟨hone, hrearranged⟩ := h
      · rfl
      refine filter_address_eq hone ?_
      -- The entries for the address are among those that count.
      have hfilter (entries : List AddressUtxos) : entries.filter (·.address = address) =
          (entries.filter (·.address ∈ asked)).filter (·.address = address) := by
        rw [List.filter_filter]
        refine List.filter_congr fun f _ => ?_
        by_cases hf : f.address = address
        · simp [hf, ha]
        · simp [hf]
      rw [hfilter fetched, hfilter fetched']
      exact hrearranged.filter_perm.filter _
    rw [heq]
  · rw [if_neg ha, if_neg fun ha' => ha (hasked.mem_iff.mpr ha')]

end BulkView

/-- What a fetch asks for is the same, or in another order. -/
theorem activeAddresses_rearranged {addresses : List String}
    {activity activity' : List AddressActivity}
    (h : RearrangesOnce (·.address) (fun a => a.hasActivity = true ∧ a.address ∈ addresses) activity
      activity') :
    activeAddresses addresses activity = activeAddresses addresses activity' ∨
      (activeAddresses addresses activity).Nodup ∧
        (activeAddresses addresses activity).Perm (activeAddresses addresses activity') := by
  obtain rfl | ⟨hone, hrearranged⟩ := h
  · exact .inl rfl
  refine .inr ⟨(List.filter_sublist.map _).nodup hone, ?_⟩
  have hfilter (entries : List AddressActivity) :
      (entries.filter fun a => a.hasActivity && a.address ∈ addresses) =
        entries.filter fun a => a.hasActivity = true ∧ a.address ∈ addresses :=
    List.filter_congr fun a _ => by simp
  rw [activeAddresses, activeAddresses, hfilter, hfilter]
  exact hrearranged.filter_perm.map _

/-! ## Programs under both environments -/

theorem isBulk_derivation (t : Target) (index : UInt32) : (t.derivation index).isBulk = false := by
  unfold Target.derivation
  split <;> rfl

section Alike

variable {env : Environment σ} {env' : Environment σ'} {S : σ → σ' → Prop}
  (h : env.Rearranged env' S) {α β : Type} {t : Target}

/-- In worlds that match, the programs end alike and in worlds that match. -/
abbrev AlikeIn (env : Environment σ) (env' : Environment σ') (S : σ → σ' → Prop)
    (R : α → β → Prop) (p : Scan α) (p' : Scan β) : Prop :=
  Program.Alike env.handler env'.handler (World.Matches S) R p p'

theorem alike_call {c c' : Call} {R : c.Answer → c'.Answer → Prop}
    (hreply : ∀ {s s'}, S s s' → (env.reply c s).Matches S R (env'.reply c' s')) :
    AlikeIn env env' S R (call c) (call c') := by
  refine Program.Alike.request (I := interface) (.call c) (.call c') fun w w' hw => ?_
  have hmatch := hreply hw.state
  exact ⟨hmatch.answer, hmatch.state, congrArg₂ or hw.cancelled hmatch.cancels, hw.tasks⟩

include h

theorem alike_isCancelled : AlikeIn env env' S Eq isCancelled isCancelled := by
  refine Program.Alike.request (I := interface) .isCancelled .isCancelled fun w w' hw => ?_
  obtain ⟨hnow, hstate⟩ := h.looks hw.state
  have hlook : (w.cancelled || (env.interrupt w.state).1) =
      (w'.cancelled || (env'.interrupt w'.state).1) := congrArg₂ or hw.cancelled hnow
  exact ⟨.ok hlook, hstate, hlook, hw.tasks⟩

/-- A program that asks nothing in bulk. -/
theorem alike_single {p : Scan α} (hp : Asks (·.isBulk = false) p) :
    AlikeIn env env' S Eq p p := by
  induction p with
  | done a => exact .done rfl
  | ask q next ih =>
    have hnext : ∀ a b, a = b → AlikeIn env env' S Eq (next a) (next b) := by
      rintro a _ rfl
      exact ih a (hp.2 a)
    cases q with
    | isCancelled => exact .bind (alike_isCancelled h) hnext
    | call c => exact .bind (alike_call fun hs => h.single hp.1 hs) hnext

theorem alike_bulkLookup (addresses : List String) :
    AlikeIn env env' S (Agree BulkView.Same) (bulkLookup addresses) (bulkLookup addresses) := by
  refine .bind (alike_call fun hs => h.activity hs) fun r r' hr => ?_
  cases hr with
  | error e => exact .done (.error e)
  | @ok activity activity' hr =>
    have hasked := activeAddresses_rearranged hr
    have hperm : (activeAddresses addresses activity).Perm (activeAddresses addresses activity') :=
      hasked.elim .of_eq And.right
    dsimp only
    by_cases hnone : activeAddresses addresses activity = []
    · have hnone' : activeAddresses addresses activity' = [] := (hnone ▸ hperm).nil_eq.symm
      rw [hnone, hnone']
      exact .done (.ok fun _ => rfl)
    · have hsome' : activeAddresses addresses activity' ≠ [] := fun he =>
        hnone (he ▸ hperm).eq_nil
      rw [if_neg (mt List.isEmpty_iff.mp hnone), if_neg (mt List.isEmpty_iff.mp hsome')]
      refine .bind (alike_call fun hs => h.fetch hasked hs) fun got got' hgot => ?_
      cases hgot with
      | error e => exact .done (.error e)
      | ok hfetched => exact .done (.ok (BulkView.same_foldl_update hperm hfetched))

/-- What is taken for an address, and what is left. -/
theorem alike_takeOrLookup {view view' : Option BulkView}
    (hview : Option.Rel BulkView.Same view view') (address : String) (scan : SchemeScan) :
    AlikeIn env env' S
      (fun r r' => r.1 = r'.1 ∧ r.2.1 = r'.2.1 ∧ Option.Rel BulkView.Same r.2.2 r'.2.2)
      (takeOrLookup t view address scan) (takeOrLookup t view' address scan) := by
  cases hview with
  | some hsame =>
    rw [takeOrLookup, takeOrLookup, hsame address]
    exact .done ⟨rfl, rfl, .some (hsame.erase address)⟩
  | none =>
    refine .bind (alike_single h (asks_lookupUtxos (fun _ => rfl) (fun _ => rfl) address scan)) ?_
    rintro utxos _ rfl
    exact .done ⟨rfl, rfl, .none⟩

theorem alike_scanBatch (batch : List Position) {view view' : Option BulkView}
    (hview : Option.Rel BulkView.Same view view') (gap : GapLimit) (scan : SchemeScan) :
    AlikeIn env env' S Eq (scanBatch t batch view gap scan) (scanBatch t batch view' gap scan) := by
  induction batch generalizing view view' gap scan with
  | nil => exact .done rfl
  | cons p rest ih =>
    rw [scanBatch, scanBatch]
    split
    · exact .done rfl
    refine .bind (alike_isCancelled h) ?_
    rintro cancelled _ rfl
    split
    · exact .done rfl
    refine .bind (alike_single h (asks_visit (fun _ => rfl) _ _)) ?_
    rintro scan _ rfl
    refine .bind (alike_takeOrLookup h hview _ _) ?_
    rintro ⟨active, utxos, view⟩ ⟨_, _, view'⟩ ⟨rfl, rfl, hview⟩
    refine .bind (alike_single h (asks_recordFound (fun _ => rfl) _ _ _ _)) ?_
    rintro scan _ rfl
    exact ih hview _ _

theorem alike_scanBatches (left start : Nat) (gap : GapLimit) (scan : SchemeScan) :
    AlikeIn env env' S Eq (scanBatches t left start gap scan)
      (scanBatches t left start gap scan) := by
  induction left generalizing start gap scan with
  | zero => exact .done rfl
  | succ left ih =>
    rw [scanBatches]
    split
    · exact .done rfl
    refine .bind (alike_isCancelled h) ?_
    rintro cancelled _ rfl
    split
    · exact .done rfl
    refine .bind (alike_single h (asks_deriveBatch (isBulk_derivation t) _)) ?_
    rintro ⟨batch, failure⟩ _ rfl
    dsimp only
    split
    · exact .done rfl
    refine .bind (alike_bulkLookup h _) fun view view' hview => ?_
    have hview : Option.Rel BulkView.Same view.toOption view'.toOption := by
      cases hview with
      | error e => exact .none
      | ok hsame => exact .some hsame
    refine .bind (alike_scanBatch h batch hview gap scan) ?_
    rintro ⟨gap, scan⟩ _ rfl
    dsimp only
    split
    · exact .done rfl
    split
    · exact .done rfl
    exact ih _ _ _

theorem alike_recordRange (positions : List Position) {view view' : BulkView}
    (hsame : view.Same view') (scan : SchemeScan) :
    AlikeIn env env' S Eq (recordRange t positions view scan)
      (recordRange t positions view' scan) := by
  induction positions generalizing view view' scan with
  | nil => exact .done rfl
  | cons p rest ih =>
    rw [recordRange, recordRange, hsame p.derived.address]
    refine .bind (alike_single h (asks_recordFound (fun _ => rfl) _ _ _ _)) ?_
    rintro scan _ rfl
    exact ih (hsame.erase _) _

theorem alike_scanRange (s : Scanner) (seed : Seed) (scheme : PathScheme) (indices : List Nat)
    (chains : List Chain) (noted : List ScanFailure) (scan : SchemeScan) :
    AlikeIn env env' S Eq (s.scanRange seed scheme indices chains noted scan)
      (s.scanRange seed scheme indices chains noted scan) := by
  induction chains generalizing noted scan with
  | nil => exact .done rfl
  | cons chain rest ih =>
    rw [Scanner.scanRange]
    refine .bind (alike_isCancelled h) ?_
    rintro cancelled _ rfl
    split
    · exact .done rfl
    refine .bind (alike_single h (asks_deriveRange (isBulk_derivation _) _)) ?_
    rintro ⟨positions, failures⟩ _ rfl
    refine .bind (alike_bulkLookup h _) fun view view' hview => ?_
    cases hview with
    | error e => exact .done rfl
    | ok hsame =>
      refine .bind (alike_recordRange h positions hsame scan) ?_
      rintro scan _ rfl
      exact ih _ _

theorem alike_scanRangeInBulk (s : Scanner) (seed : Seed) (scheme : PathScheme)
    (indices : List Nat) :
    AlikeIn env env' S Eq (s.scanRangeInBulk seed scheme indices)
      (s.scanRangeInBulk seed scheme indices) := by
  refine .bind (alike_scanRange h s seed scheme indices _ _ _) ?_
  rintro (e | ⟨noted, scan⟩) _ rfl
  · exact .done rfl
  · exact .done rfl

end Alike

/-- **Bulk answers count by address.** A lookup fetches only if an address that was asked for is
reported active, and then fetches these addresses. Its view has exactly these, each with what the
last entry that was fetched for it says. So where answers have one entry at most for an address, it
does not matter in which order they come and which others come with them: not to a view, nor to what
comes of a chain that is scanned in batches or of a range. -/
theorem bulk_answers_by_address :
    (∀ (addresses : List String) (env : Environment σ) (w : World σ),
      LookedUp addresses ((bulkLookup addresses).recorded env.handler w).2
        ((bulkLookup addresses).recorded env.handler w).1) ∧
    ∀ (env : Environment σ) (env' : Environment σ') (S : σ → σ' → Prop), env.Rearranged env' S →
      ∀ w w', World.Matches S w w' →
        (∀ addresses, Agree (Agree BulkView.Same) ((bulkLookup addresses).run env.handler w).1
          ((bulkLookup addresses).run env'.handler w').1) ∧
        (∀ t gapLimit scan, ((scanInBatches t gapLimit scan).run env.handler w).1 =
          ((scanInBatches t gapLimit scan).run env'.handler w').1) ∧
        ∀ (s : Scanner) seed scheme indices,
          ((s.scanRangeInBulk seed scheme indices).run env.handler w).1 =
            ((s.scanRangeInBulk seed scheme indices).run env'.handler w').1 := by
  refine ⟨fun addresses env w => lookedUp_recorded addresses env.handler w,
    fun env env' S h w w' hw => ⟨fun addresses => ?_, fun t gapLimit scan => ?_,
      fun s seed scheme indices => ?_⟩⟩
  · exact (alike_bulkLookup h addresses w w' hw).1
  · exact (alike_scanBatches h batchCount 0 _ scan w w' hw).1.eq
  · exact (alike_scanRangeInBulk h s seed scheme indices w w' hw).1.eq

/-- What a ledger answers, with what it says in bulk in the opposite order, without inactive
addresses, and with an address that nobody asked for. -/
def shuffledAnswer (utxos : String → List Utxo) : (c : Call) → c.Answer
  | .checkActivity addresses =>
    let known := addresses.map fun a => (⟨a, !(utxos a).isEmpty, 1⟩ : AddressActivity)
    .ok <| if addresses.Nodup ∧ "b" ∉ addresses then
      ⟨"b", true, 1⟩ :: (known.filter (·.hasActivity)).reverse
    else known
  | .fetchUtxos asked =>
    let known := asked.map fun a => (⟨a, utxos a⟩ : AddressUtxos)
    .ok <| if asked.Nodup ∧ "b" ∉ asked then ⟨"b", utxos "b"⟩ :: known.reverse else known
  | c => Environment.ledgerAnswer utxos c

theorem rearranged_shuffledAnswer (utxos : String → List Utxo) :
    (Environment.ofAnswers (Environment.ledgerAnswer utxos)).Rearranged
      (Environment.ofAnswers (shuffledAnswer utxos)) fun _ _ => True where
  looks _ := ⟨rfl, .intro⟩
  single {c _ _} hc _ := by
    cases c with
    | checkActivity addresses => cases hc
    | fetchUtxos asked => cases hc
    | _ => exact ⟨.ok rfl, .intro, rfl⟩
  activity {addresses _ _} _ := by
    refine ⟨.ok (.ok ?_), .intro, rfl⟩
    split
    case isFalse => exact .inl rfl
    case isTrue h =>
      refine .inr ⟨by simpa [Function.comp_def] using h.1, ?_⟩
      have hactive : ((addresses.map fun a => (⟨a, !(utxos a).isEmpty, 1⟩ : AddressActivity)).filter
          (·.hasActivity)) = (addresses.map fun a => ⟨a, !(utxos a).isEmpty, 1⟩).filter
            fun a => a.hasActivity = true ∧ a.address ∈ addresses := by
        refine List.filter_congr fun a ha => ?_
        obtain ⟨address, haddress, rfl⟩ := List.mem_map.mp ha
        cases utxos address <;> simp [haddress]
      rw [hactive]
      exact .trans (.filter _)
        (.trans (.reorder (List.reverse_perm _).symm) (.add _ fun hb => h.2 hb.2))
  fetch {asked asked' _ _} hasked _ := by
    refine ⟨.ok (.ok ?_), .intro, rfl⟩
    have hperm : asked.Perm asked' := hasked.elim .of_eq And.right
    by_cases hone : asked.Nodup
    · refine .inr ⟨by simpa [Function.comp_def] using hone, ?_⟩
      split
      case isFalse => exact .reorder (hperm.map _)
      case isTrue h =>
        exact .trans (.reorder ((hperm.map _).trans (List.reverse_perm _).symm))
          (.add _ fun hb => h.2 (hperm.mem_iff.mp hb))
    · obtain rfl := hasked.resolve_right fun h => hone h.1
      exact .inl (if_neg fun h => hone h.1).symm

/-- The answers are shuffled: what comes of a chain with two used addresses is the same. -/
theorem bulk_answers_by_address_shuffled :
    let utxos := fun a : String => if a = "a" ∨ a = "aaa" then [(⟨"t", 0, 5, a, 1⟩ : Utxo)] else []
    let chain : Target := ⟨.default, ⟨[7]⟩, .bip44 "wallet" 5 [0] 1, ⟨0, false⟩⟩
    shuffledAnswer utxos (.checkActivity ["", "a", "aa", "aaa"]) =
        .ok [⟨"b", true, 1⟩, ⟨"aaa", true, 1⟩, ⟨"a", true, 1⟩] ∧
      ((scanInBatches chain 20 (.start "wallet")).run
        (Environment.ofAnswers (Environment.ledgerAnswer utxos)).handler ⟨(), false, 0⟩).1 =
      ((scanInBatches chain 20 (.start "wallet")).run
        (Environment.ofAnswers (shuffledAnswer utxos)).handler ⟨(), false, 0⟩).1 := by
  intro utxos chain
  obtain ⟨-, hbatches, -⟩ := bulk_answers_by_address.2 _ _ _ (rearranged_shuffledAnswer utxos)
    ⟨(), false, 0⟩ ⟨(), false, 0⟩ ⟨.intro, rfl, rfl⟩
  exact ⟨by decide, hbatches chain 20 (.start "wallet")⟩

end FundRecovery.Discovery
