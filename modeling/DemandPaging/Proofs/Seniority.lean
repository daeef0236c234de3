import DemandPaging.Proofs.Occasions
import DemandPaging.Proofs.Orders
import Mathlib.Data.List.DropRight

/-!
# Seniority

Under the two policies that keep a list of pages, a page is *renewed* when it is loaded, and under the
one that goes by last use also when it is used where it is (`Episode.renewed?`). The time at which a
page was renewed last can be told from what has happened so far (`renewal`), with no regard to frames,
slots or lists.

Each episode takes pages out of the list, and puts the page that it renews behind the others
(`PagedMemory.Kept.renews_of_occur`). So the list always has its pages in the order of these times
(`Ascends.of_renews`), whatever has happened to them in between; and the frames that the policy tracks
are those of the resident pages in this order, of which it names the first one as its victim
(`PagedMemory.tracked_by_renewal`).
-/

namespace DemandPaging

/-! ### Episodes -/

/-- An occasion and the answer to it. Together they tell whether a page was used where it was or had to
be loaded. -/
structure Episode where
  /-- What happened. -/
  occasion : Occasion
  /-- The frame that a page was put into, and the page that had to leave it. -/
  answer : Option (FrameId × Option PageRef)
  deriving DecidableEq, Repr

namespace Episode

/-- The page that was put into a frame, if one was: it was used and not in memory. Nothing but a use
loads a page. -/
def loaded? (episode : Episode) : Option PageRef :=
  match episode.occasion, episode.answer with
  | .use ref, some _ => some ref
  | _, _ => none

/-- The page that was put into a frame or used in its frame, if one was. Every use does one or
the other. -/
def used? (episode : Episode) : Option PageRef :=
  match episode.occasion with
  | .use ref => some ref
  | .meet _ | .drop _ => none

/-- The page that was renewed, if one was. Use counts under the policy that goes by last use; under the
one that goes by arrival it does not. -/
def renewed? (kind : PolicyKind) (episode : Episode) : Option PageRef :=
  if kind = .lru then episode.used? else episode.loaded?

end Episode

variable {kind : PolicyKind} {episode : Episode} {episodes : List Episode} {ref : PageRef}
  {refs left : List PageRef} {time : PageRef → Nat}

/-- When a page was renewed last: the number of episodes up to then, or zero if it never was. It reads
the episodes from the end, and stops at the first that renews the page. -/
def renewal (kind : PolicyKind) (episodes : List Episode) (ref : PageRef) : Nat :=
  (episodes.rdropWhile fun episode => episode.renewed? kind ≠ some ref).length

theorem renewal_concat : renewal kind (episodes ++ [episode]) ref =
    if episode.renewed? kind = some ref then episodes.length + 1 else renewal kind episodes ref := by
  rw [renewal, List.rdropWhile_concat]
  -- the last episode is looked at first
  by_cases hrenewed : episode.renewed? kind = some ref
  · rw [if_neg (by simpa using hrenewed), if_pos hrenewed, List.length_append, List.length_singleton]
  · rw [if_pos (by simpa using hrenewed), if_neg hrenewed, renewal]

theorem renewal_le : renewal kind episodes ref ≤ episodes.length :=
  (List.rdropWhile_prefix _ _).length_le

/-! ### Pages in the order of their times -/

/-- Pages in the order of the times at which they were renewed, and each of them was. No two of them were
renewed at once. -/
structure Ascends (time : PageRef → Nat) (refs : List PageRef) : Prop where
  /-- Each page is older than those behind it. -/
  ordered : refs.Pairwise fun older newer => time older < time newer
  /-- Each page was renewed at some time. -/
  positive : ∀ ref ∈ refs, 0 < time ref

/-- What an episode does to a list of pages: some may leave, and the one that is renewed comes to the
end. -/
inductive Renews (kind : PolicyKind) (episode : Episode) (refs : List PageRef) : List PageRef → Prop where
  /-- No page is renewed. -/
  | none {left : List PageRef} (hnone : episode.renewed? kind = none) (hleft : left.Sublist refs) :
    Renews kind episode refs left
  /-- A page is renewed, and is not in the list elsewhere. -/
  | some {left : List PageRef} {ref : PageRef} (hsome : episode.renewed? kind = some ref)
    (hleft : left.Sublist refs) (hnew : ref ∉ left) : Renews kind episode refs (left ++ [ref])

theorem Ascends.sublist (h : Ascends time refs) (hleft : left.Sublist refs) : Ascends time left where
  ordered := h.ordered.sublist hleft
  positive ref hmem := h.positive ref (hleft.subset hmem)

theorem Ascends.congr {time' : PageRef → Nat} (h : Ascends time refs)
    (heq : ∀ ref ∈ refs, time' ref = time ref) : Ascends time' refs where
  ordered := h.ordered.imp_of_mem fun {older newer} holder hnewer hlt => by
    rwa [heq older holder, heq newer hnewer]
  positive ref hmem := (heq ref hmem).symm ▸ h.positive ref hmem

/-- **One episode.** A page that is renewed is newer than all others, and the times of the others stay
what they were. -/
theorem Ascends.of_renews {refs' : List PageRef} (h : Ascends (renewal kind episodes) refs)
    (hrenews : Renews kind episode refs refs') :
    Ascends (renewal kind (episodes ++ [episode])) refs' := by
  cases hrenews with
  -- with nothing renewed the times are the same, and the order is that of before
  | none hnone hleft =>
    refine (h.sublist hleft).congr fun ref _ => ?_
    rw [renewal_concat, hnone, if_neg (Option.some_ne_none ref).symm]
  | @some left ref hsome hleft hnew =>
    -- the page that is renewed has the latest time there is
    have hself : renewal kind (episodes ++ [episode]) ref = episodes.length + 1 := by
      rw [renewal_concat, if_pos hsome]
    have hothers : Ascends (renewal kind (episodes ++ [episode])) left := by
      refine (h.sublist hleft).congr fun other hmem => ?_
      rw [renewal_concat, hsome, if_neg]
      intro heq
      exact hnew (Option.some.inj heq ▸ hmem)
    refine ⟨List.pairwise_append.2 ⟨hothers.ordered, List.pairwise_singleton _ _, ?_⟩, ?_⟩
    · -- the one at the end is newer than each that was there
      intro older holder newer hnewer
      rw [List.mem_singleton.1 hnewer, hself, renewal_concat, hsome, if_neg]
      · exact Nat.lt_succ_of_le renewal_le
      · intro heq
        exact hnew (Option.some.inj heq ▸ holder)
    · -- and was renewed, as the others were
      intro other hmem
      rcases List.mem_append.1 hmem with hin | hin
      · exact hothers.positive other hin
      · rw [List.mem_singleton.1 hin, hself]
        exact Nat.succ_pos _

/-! ### What an episode does to the list of a policy -/

variable {list : PageList}

/-- The list without the page that has to leave, if one has to. It is the first one of the list. -/
theorem Room.keeps {frames : FrameTable} {policy policy' : Policy} {pages pages' : PageMap}
    {frame : FrameId} (h : Room frames policy pages frame policy' pages')
    (hkeeps : policy.Keeps kind list) (hfollows : list.Follows pages) :
    ∃ list', policy'.Keeps kind list' ∧ list'.refs.Sublist list.refs := by
  cases h with
  | free => exact ⟨list, hkeeps, List.Sublist.refl _⟩
  -- the victim is the oldest, at the head of the list
  | taken hfull hvictim howner hframe =>
    obtain ⟨list', oldest, hkeeps', hrefs, -⟩ := hkeeps.victim hfollows hvictim
    exact ⟨list', hkeeps', hrefs ▸ List.sublist_cons_self oldest _⟩

/-- The list with the page that comes into memory. It comes to the end, and of the others the
first one may have left. -/
theorem Intake.keeps {frames : FrameTable} {policy policy' : Policy} {pages pages' : PageMap}
    (h : Intake frames policy pages ref policy' pages') (hcoherent : Coherent frames policy pages)
    (hkeeps : policy.Keeps kind list) :
    ∃ list', policy'.Keeps kind list' ∧
      ∃ left : List PageRef, left.Sublist list.refs ∧ ref ∉ left ∧ list'.refs = left ++ [ref] := by
  cases h with
  | load hpage hout hroom hkept hnote =>
    -- room is made first; what is left is the list before, or that list without its head
    obtain ⟨list₁, hkeeps₁, hsublist⟩ := hroom.keeps hkeeps (hkeeps.follows hcoherent.follows)
    have hfollows₁ := hkeeps₁.follows (hroom.follows hcoherent)
    obtain ⟨list', hkeeps', hrefs⟩ := hkeeps₁.noteLoad hfollows₁ hkept hnote
    refine ⟨list', hkeeps', list₁.refs, hsublist, ?_, hrefs⟩
    -- the page was in no frame until now
    rw [hfollows₁.mem_refs_iff, PageMap.frame?_of_page hkept, hout]
    rintro ⟨frame, ⟨⟩⟩

namespace PagedMemory

variable {m m' : PagedMemory} {page : Page} {total seed : Nat}

/-- **A use.** The page comes to the end of the list if it is loaded, and if it is not then the order has
to be that of last use. The list says where a page is, and the episode whether it was renewed. -/
theorem Touches.renews {answer : Option (FrameId × Option PageRef)} (h : m.Touches ref page answer m')
    (hkept : m.Kept) (hpage : m.page? ref = some page) (hkeeps : m.policy.Keeps kind list) :
    ∃ list', m'.policy.Keeps kind list' ∧ Renews kind ⟨.use ref, answer⟩ list.refs list'.refs := by
  have hfollows := hkeeps.follows hkept.coherent.follows
  cases h with
  | hit hframe haccess =>
    obtain ⟨list', hkeeps', hrefs⟩ := hkeeps.noteAccess hfollows hpage hframe haccess
    refine ⟨list', hkeeps', ?_⟩
    rw [hrefs]
    -- a hit moves the page only under the policy that goes by last use
    split
    · next hkind =>
      exact .some (if_pos hkind) List.erase_sublist hfollows.nodup_refs.not_mem_erase
    · next hkind => exact .none (if_neg hkind) (List.Sublist.refl _)
  -- a miss puts it behind the others under both
  | miss hintake =>
    obtain ⟨list', hkeeps', left, hsublist, hnew, hrefs⟩ := hintake.keeps hkept.coherent hkeeps
    exact ⟨list', hkeeps', hrefs ▸ .some (ite_self _) hsublist hnew⟩

/-- **An occasion.** It succeeds, and does to the list what its episode says. Meeting a page and giving
one up renew nothing. -/
theorem Kept.renews_of_occur (h : m.Kept) (hkeeps : m.policy.Keeps kind list) (occasion : Occasion) :
    ∃ answer m' list', m.occur occasion = .ok (answer, m') ∧ m'.Kept ∧ m'.policy.Keeps kind list' ∧
      Renews kind ⟨occasion, answer⟩ list.refs list'.refs := by
  have hfollows := hkeeps.follows h.coherent.follows
  cases occasion with
  | meet ref =>
    cases hpage : m.page? ref with
    | some page =>
      exact ⟨none, m, list, by simp only [occur, hpage], h, hkeeps,
        .none (ite_self _) (List.Sublist.refl _)⟩
    | none =>
      obtain ⟨list', hkeeps', hrefs⟩ := hkeeps.track hfollows ref
      exact ⟨none, _, list', by simp only [occur, hpage], (h.track hpage).1, hkeeps',
        .none (ite_self _) (hrefs ▸ List.Sublist.refl _)⟩
  | use ref =>
    cases hpage : m.page? ref with
    | some page =>
      obtain ⟨answer, m', htouch, h', -, htouches, -⟩ := h.touch_eq_ok_of_page hpage
      obtain ⟨list', hkeeps', hrenews⟩ := htouches.renews h hpage hkeeps
      exact ⟨answer, m', list', htouch, h', hkeeps', hrenews⟩
    -- a page that is not known is met first, which leaves the list alone
    | none =>
      obtain ⟨h₁, hpage₁, -⟩ := h.track hpage
      obtain ⟨list₁, hkeeps₁, hrefs⟩ := hkeeps.track hfollows ref
      obtain ⟨answer, m', htouch, h', -, htouches, -⟩ := h₁.touch_eq_ok_of_page hpage₁
      obtain ⟨list', hkeeps', hrenews⟩ := htouches.renews h₁ hpage₁ hkeeps₁
      exact ⟨answer, m', list', (h.touch_track hpage).trans htouch, h', hkeeps', hrefs ▸ hrenews⟩
  | drop ref =>
    cases hpage : m.page? ref with
    | some page =>
      obtain ⟨m', hdiscard, h', -, hforget⟩ := h.discard_eq_ok hpage
      obtain ⟨list', hkeeps', hrefs⟩ := hkeeps.forget hfollows hpage hforget
      -- the page that is given up leaves the list
      refine ⟨none, m', list', ?_, h', hkeeps', .none (ite_self _) (hrefs ▸ List.erase_sublist)⟩
      simp only [occur, hpage, hdiscard]
      rfl
    | none =>
      exact ⟨none, m, list, by simp only [occur, hpage], h, hkeeps,
        .none (ite_self _) (List.Sublist.refl _)⟩

/-! ### Any number of episodes -/

/-- Lets several things happen, one after the other, and keeps the answers, from which it can be told
which pages were renewed. -/
def occurEach (m : PagedMemory) : List Occasion → Except Fault (List Episode × PagedMemory)
  | [] => .ok ([], m)
  | occasion :: rest => do
    let (answer, m) ← m.occur occasion
    let (episodes, m) ← m.occurEach rest
    return (⟨occasion, answer⟩ :: episodes, m)

/-- **A run.** After any number of episodes the list has its pages in order. By induction on the
occasions, with the episodes so far growing by one at a time. -/
theorem Kept.ascends_of_occurEach (h : m.Kept) (hkeeps : m.policy.Keeps kind list)
    (hascends : Ascends (renewal kind episodes) list.refs) (occasions : List Occasion) :
    ∃ later m' list', m.occurEach occasions = .ok (later, m') ∧ m'.Kept ∧
      m'.policy.Keeps kind list' ∧ Ascends (renewal kind (episodes ++ later)) list'.refs := by
  -- by induction on the occasions, for any episodes so far, since the first one adds to them
  induction occasions generalizing m list episodes with
  | nil => exact ⟨[], m, list, rfl, h, hkeeps, (List.append_nil episodes).symm ▸ hascends⟩
  | cons occasion rest ih =>
    obtain ⟨answer, m₁, list₁, hoccur, h₁, hkeeps₁, hrenews⟩ := h.renews_of_occur hkeeps occasion
    obtain ⟨later, m', list', hrest, h', hkeeps', hascends'⟩ :=
      ih h₁ hkeeps₁ (hascends.of_renews hrenews)
    refine ⟨⟨occasion, answer⟩ :: later, m', list', ?_, h', hkeeps', ?_⟩
    · rw [occurEach, hoccur]
      simp only [hrest, bind, Except.bind]
      rfl
    · rwa [List.append_assoc] at hascends'

/-- The pages in memory are as old as they are said to be, and the policy goes by that. The list of the
policy does not appear: it is what all clauses are proved from. -/
structure Senior (m : PagedMemory) (time : PageRef → Nat) (refs : List PageRef) : Prop where
  /-- The pages are the resident ones. -/
  mem_iff : ∀ ref, ref ∈ refs ↔ ∃ page, m.page? ref = some page ∧ page.isResident = true
  /-- They are in the order of their times, the oldest one first. -/
  ascends : Ascends time refs
  /-- The policy tracks their frames in this order. -/
  tracked_eq : m.policy.tracked? = some (refs.filterMap (PageMap.frame? m.page?))
  /-- The first one is given up, and the others are left in order. -/
  victim_eq : ∀ {first rest}, m.policy.tracked? = some (first :: rest) →
    ∃ policy, m.policy.victim = .ok (first, policy) ∧ policy.tracked? = some rest

/-- **Seniority.** Under the policies that keep a list everything that happens to the pages succeeds, and
after it the tracked frames are those of the resident pages in the order of their last loads, or of
their last loads and uses; the victim is the first of them. -/
theorem tracked_by_renewal (hkind : kind = .lru ∨ kind = .fifo) (htotal : 0 < total)
    (occasions : List Occasion) :
    ∃ m₀ episodes m refs, build kind total seed = .ok m₀ ∧
      m₀.occurEach occasions = .ok (episodes, m) ∧ m.Senior (renewal kind episodes) refs := by
  obtain ⟨m₀, hbuild, h₀, -⟩ := exists_kept_of_build kind seed htotal
  -- a new list has no pages, which are in order
  have hkeeps₀ : m₀.policy.Keeps kind ∅ := by
    obtain ⟨policy, hpolicy, hrest⟩ := Fault.bind_eq_ok_iff.1 hbuild
    obtain ⟨store, -, heq⟩ := Fault.bind_eq_ok_iff.1 hrest
    cases heq
    exact Policy.keeps_of_build hkind hpolicy
  have hascends₀ : Ascends (renewal kind []) (∅ : PageList).refs := by
    rw [PageList.refs_empty]
    exact ⟨.nil, fun ref hmem => absurd hmem List.not_mem_nil⟩
  obtain ⟨episodes, m, list, hall, h, hkeeps, hascends⟩ :=
    h₀.ascends_of_occurEach hkeeps₀ hascends₀ occasions
  have hfollows := hkeeps.follows h.coherent.follows
  refine ⟨m₀, episodes, m, list.refs, hbuild, hall, fun ref => ?_, hascends, ?_,
    fun {first rest} heq => ?_⟩
  · -- the list has the resident pages
    rw [hfollows.mem_refs_iff]
    constructor
    · rintro ⟨frame, hframe⟩
      obtain ⟨page, hpage, hframe⟩ := PageMap.frame?_eq_some_iff.1 hframe
      exact ⟨page, hpage, Page.isResident_iff.2 ⟨frame, hframe⟩⟩
    · rintro ⟨page, hpage, hresident⟩
      obtain ⟨frame, hframe⟩ := Page.isResident_iff.1 hresident
      exact ⟨frame, PageMap.frame?_eq_some_iff.2 ⟨page, hpage, hframe⟩⟩
  · -- its frames are theirs, in its order, and its head is the victim
    rw [hkeeps.tracked?_eq, hfollows.frames_eq]
  · rw [hkeeps.tracked?_eq] at heq
    exact hkeeps.victim_eq_ok hfollows (Option.some.inj heq)

/-- Three pages in two frames, one of them given up and loaded again. -/
theorem tracked_by_renewal_of_three :
    ((PolicyKind.fifo = .lru ∨ PolicyKind.fifo = .fifo) ∧ 0 < 2) ∧
      ∃ m₀ episodes m refs, build .fifo 2 0 = .ok m₀ ∧
        m₀.occurEach [.use ⟨1, 0⟩, .use ⟨1, 1⟩, .use ⟨1, 0⟩, .use ⟨2, 0⟩, .drop ⟨1, 1⟩, .use ⟨1, 1⟩] =
          .ok (episodes, m) ∧ m.Senior (renewal .fifo episodes) refs :=
  ⟨⟨.inr rfl, by decide⟩, tracked_by_renewal (.inr rfl) (by decide) _⟩

/-- A page that is used last leaves last, though it was loaded first. -/
example : (do
    let m ← build .lru 3 0
    let (_, m) ← m.occurEach [.use ⟨1, 1⟩, .use ⟨1, 2⟩, .use ⟨1, 3⟩, .use ⟨1, 1⟩]
    return m.policy.tracked?) = Except.ok (some [1, 2, 0]) := by
  decide +kernel

end PagedMemory

end DemandPaging
