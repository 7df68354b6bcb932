import TibiaGame.Library.LinkedList

/-!
# Doubly linked bucket chains

A set of positions is spread over buckets; each bucket is a doubly linked chain
with a head pointer, and `nil` ends a chain in both directions. The invariant is
local to a position and its neighbours, except for a bounded rank that falls
along `prev`: it is what excludes rings that no head reaches. Three changes keep
the invariant: giving a position another name, putting a new position in front
of a chain, and taking one out.
-/

namespace TibiaGame.Library.BucketChains

open Library.LinkedList

variable {Pos Bucket : Type*}

structure Links (Pos Bucket : Type*) where
  next : Pos → Pos
  prev : Pos → Pos
  head : Bucket → Pos
  bucket : Pos → Bucket

structure Linked (nil : Pos) (live : Pos → Prop) (links : Links Pos Bucket) : Prop where
  nil_dead : ¬ live nil
  next_live : ∀ p, live p → links.next p ≠ nil →
    live (links.next p) ∧ links.prev (links.next p) = p ∧
      links.bucket (links.next p) = links.bucket p
  prev_live : ∀ p, live p → links.prev p ≠ nil →
    live (links.prev p) ∧ links.next (links.prev p) = p
  first : ∀ p, live p → links.prev p = nil → links.head (links.bucket p) = p
  head_live : ∀ b, links.head b ≠ nil →
    live (links.head b) ∧ links.prev (links.head b) = nil ∧ links.bucket (links.head b) = b
  ranked : ∃ (rank : Pos → Nat) (bound : Nat), ∀ p, live p →
    rank p < bound ∧ (links.prev p ≠ nil → rank (links.prev p) < rank p)

variable {nil : Pos} {live : Pos → Prop} {links : Links Pos Bucket}

variable (linked : Linked nil live links)
include linked

section

variable {p : Pos} {newLive : Pos → Prop} {newLinks : Links Pos Bucket}

theorem Linked.ne_nil (member : live p) : p ≠ nil := by
  rintro rfl
  exact linked.nil_dead member

theorem Linked.prev_bucket (member : live p) (inner : links.prev p ≠ nil) :
    links.bucket (links.prev p) = links.bucket p := by
  obtain ⟨prevLive, back⟩ := linked.prev_live p member inner
  have forward := (linked.next_live (links.prev p) prevLive
    (by rw [back]; exact linked.ne_nil member)).2.2
  rw [back] at forward
  exact forward.symm

theorem Linked.prev_ne_self (member : live p) : links.prev p ≠ p := by
  intro same
  obtain ⟨rank, bound, ranked⟩ := linked.ranked
  have falls := (ranked p member).2 (by rw [same]; exact linked.ne_nil member)
  rw [same] at falls
  exact lt_irrefl _ falls

theorem Linked.next_ne_self (member : live p) : links.next p ≠ p := by
  intro same
  have back := (linked.next_live p member (by rw [same]; exact linked.ne_nil member)).2.1
  rw [same] at back
  exact linked.prev_ne_self member back

/-- The chains under new names. `back` undoes the renaming on every position in
use, so no two of them are given one name. -/
theorem Linked.rename (rename back : Pos → Pos) (renameNil : rename nil = nil)
    (undo : ∀ p, live p ∨ p = nil → back (rename p) = p)
    (image : ∀ q, newLive q ↔ ∃ p, live p ∧ rename p = q)
    (next : ∀ p, live p → newLinks.next (rename p) = rename (links.next p))
    (prev : ∀ p, live p → newLinks.prev (rename p) = rename (links.prev p))
    (bucket : ∀ p, live p → newLinks.bucket (rename p) = links.bucket p)
    (head : ∀ b, newLinks.head b = rename (links.head b)) : Linked nil newLive newLinks := by
  have renamed_ne_nil : ∀ p, live p → rename p ≠ nil := by
    intro p member same
    have undone := undo p (.inl member)
    rw [same, ← renameNil, undo nil (.inr rfl)] at undone
    exact linked.ne_nil member undone.symm
  have nil_of_renamed : ∀ p, rename p ≠ nil → p ≠ nil := by
    rintro p different rfl
    exact different renameNil
  refine ⟨?_, ?_, ?_, ?_, ?_, ?_⟩
  · intro member
    obtain ⟨p, pLive, same⟩ := (image nil).mp member
    exact renamed_ne_nil p pLive same
  · intro q member inner
    obtain ⟨p, pLive, rfl⟩ := (image q).mp member
    rw [next p pLive] at inner ⊢
    obtain ⟨nextLive, nextBack, nextBucket⟩ :=
      linked.next_live p pLive (nil_of_renamed _ inner)
    refine ⟨(image _).mpr ⟨_, nextLive, rfl⟩, ?_, ?_⟩
    · rw [prev _ nextLive, nextBack]
    · rw [bucket _ nextLive, bucket p pLive, nextBucket]
  · intro q member inner
    obtain ⟨p, pLive, rfl⟩ := (image q).mp member
    rw [prev p pLive] at inner ⊢
    obtain ⟨prevLive, prevNext⟩ := linked.prev_live p pLive (nil_of_renamed _ inner)
    exact ⟨(image _).mpr ⟨_, prevLive, rfl⟩, by rw [next _ prevLive, prevNext]⟩
  · intro q member outer
    obtain ⟨p, pLive, rfl⟩ := (image q).mp member
    rw [prev p pLive] at outer
    have prevNil : links.prev p = nil := by
      by_contra inner
      exact renamed_ne_nil _ (linked.prev_live p pLive inner).1 outer
    rw [bucket p pLive, head, linked.first p pLive prevNil]
  · intro b inner
    rw [head] at inner ⊢
    obtain ⟨headLive, headPrev, headBucket⟩ := linked.head_live b (nil_of_renamed _ inner)
    refine ⟨(image _).mpr ⟨_, headLive, rfl⟩, ?_, ?_⟩
    · rw [prev _ headLive, headPrev, renameNil]
    · rw [bucket _ headLive, headBucket]
  · obtain ⟨rank, bound, ranked⟩ := linked.ranked
    refine ⟨rank ∘ back, bound, ?_⟩
    intro q member
    obtain ⟨p, pLive, rfl⟩ := (image q).mp member
    simp only [Function.comp_apply, undo p (.inl pLive)]
    refine ⟨(ranked p pLive).1, ?_⟩
    intro inner
    rw [prev p pLive] at inner ⊢
    have inner' := nil_of_renamed _ inner
    rw [undo _ (.inl (linked.prev_live p pLive inner').1)]
    exact (ranked p pLive).2 inner'

/-- A new position becomes the head of its bucket. -/
theorem Linked.push_front {fresh : Pos} (notNil : fresh ≠ nil) (notLive : ¬ live fresh)
    (member : ∀ q, newLive q ↔ q = fresh ∨ live q)
    (freshNext : newLinks.next fresh = links.head (newLinks.bucket fresh))
    (freshPrev : newLinks.prev fresh = nil) (next : ∀ q, live q → newLinks.next q = links.next q)
    (prevHead : ∀ q, live q → q = links.head (newLinks.bucket fresh) → newLinks.prev q = fresh)
    (prevOther : ∀ q, live q → q ≠ links.head (newLinks.bucket fresh) →
      newLinks.prev q = links.prev q) (bucket : ∀ q, live q → newLinks.bucket q = links.bucket q)
    (headHere : newLinks.head (newLinks.bucket fresh) = fresh)
    (headOther : ∀ b, b ≠ newLinks.bucket fresh → newLinks.head b = links.head b) :
    Linked nil newLive newLinks := by
  refine ⟨?_, ?_, ?_, ?_, ?_, ?_⟩
  · rintro isLive
    rcases (member nil).mp isLive with same | old
    · exact notNil same.symm
    · exact linked.nil_dead old
  · intro p isLive inner
    rcases (member p).mp isLive with rfl | old
    · rw [freshNext] at inner ⊢
      obtain ⟨headLive, headPrev, headBucket⟩ := linked.head_live _ inner
      exact ⟨(member _).mpr (.inr headLive), prevHead _ headLive rfl,
        by rw [bucket _ headLive, headBucket]⟩
    rw [next p old] at inner ⊢
    obtain ⟨nextLive, nextBack, nextBucket⟩ := linked.next_live p old inner
    refine ⟨(member _).mpr (.inr nextLive), ?_, ?_⟩
    · rw [prevOther _ nextLive ?_, nextBack]
      intro same
      have headPrev := (linked.head_live (newLinks.bucket fresh)
        (by rw [← same]; exact inner)).2.1
      rw [← same, nextBack] at headPrev
      exact linked.ne_nil old headPrev
    · rw [bucket _ nextLive, bucket p old, nextBucket]
  · intro p isLive inner
    rcases (member p).mp isLive with rfl | old
    · exact (inner freshPrev).elim
    by_cases isHead : p = links.head (newLinks.bucket fresh)
    · rw [prevHead p old isHead]
      exact ⟨(member _).mpr (.inl rfl), by rw [freshNext, ← isHead]⟩
    rw [prevOther p old isHead] at inner ⊢
    obtain ⟨prevLive, prevNext⟩ := linked.prev_live p old inner
    exact ⟨(member _).mpr (.inr prevLive), by rw [next _ prevLive, prevNext]⟩
  · intro p isLive outer
    rcases (member p).mp isLive with rfl | old
    · exact headHere
    by_cases isHead : p = links.head (newLinks.bucket fresh)
    · rw [prevHead p old isHead] at outer
      exact (notNil outer).elim
    rw [prevOther p old isHead] at outer
    have wasFirst := linked.first p old outer
    rw [bucket p old, headOther _ ?_, wasFirst]
    intro sameBucket
    rw [sameBucket] at wasFirst
    exact isHead wasFirst.symm
  · intro b inner
    by_cases here : b = newLinks.bucket fresh
    · subst here
      rw [headHere]
      exact ⟨(member _).mpr (.inl rfl), freshPrev, rfl⟩
    rw [headOther b here] at inner ⊢
    obtain ⟨headLive, headPrev, headBucket⟩ := linked.head_live b inner
    refine ⟨(member _).mpr (.inr headLive), ?_, by rw [bucket _ headLive, headBucket]⟩
    rw [prevOther _ headLive ?_, headPrev]
    intro same
    apply here
    rw [← headBucket, same]
    exact (linked.head_live _ (by rw [← same]; exact inner)).2.2
  · classical
    obtain ⟨rank, bound, ranked⟩ := linked.ranked
    refine ⟨fun q => if q = fresh then 0 else rank q + 1, bound + 1, ?_⟩
    intro p isLive
    rcases (member p).mp isLive with rfl | old
    · simp [freshPrev]
    have notFresh : p ≠ fresh := by
      rintro rfl
      exact notLive old
    simp only [if_neg notFresh]
    refine ⟨by have := (ranked p old).1; omega, ?_⟩
    intro inner
    by_cases isHead : p = links.head (newLinks.bucket fresh)
    · rw [prevHead p old isHead]
      simp
    rw [prevOther p old isHead] at inner ⊢
    have prevOld := (linked.prev_live p old inner).1
    rw [if_neg (by rintro same; exact notLive (same ▸ prevOld))]
    have := (ranked p old).2 inner
    omega

/-- One position leaves its chain; its neighbours are joined. -/
theorem Linked.unlink {gone : Pos} (goneLive : live gone)
    (member : ∀ q, newLive q ↔ live q ∧ q ≠ gone)
    (nextJoined : live (links.prev gone) → newLinks.next (links.prev gone) = links.next gone)
    (nextOther : ∀ q, live q → q ≠ gone → q ≠ links.prev gone → newLinks.next q = links.next q)
    (prevJoined : live (links.next gone) → newLinks.prev (links.next gone) = links.prev gone)
    (prevOther : ∀ q, live q → q ≠ gone → q ≠ links.next gone → newLinks.prev q = links.prev q)
    (bucket : ∀ q, live q → q ≠ gone → newLinks.bucket q = links.bucket q)
    (headHere : links.prev gone = nil → newLinks.head (links.bucket gone) = links.next gone)
    (headOther : ∀ b, b ≠ links.bucket gone ∨ links.prev gone ≠ nil →
      newLinks.head b = links.head b) : Linked nil newLive newLinks := by
  have next_gone : ∀ q, live q → links.next q = gone → links.prev gone = q := by
    intro q qLive same
    have back := (linked.next_live q qLive (by rw [same]; exact linked.ne_nil goneLive)).2.1
    rwa [same] at back
  have prev_gone : ∀ q, live q → links.prev q = gone → links.next gone = q := by
    intro q qLive same
    have forward := (linked.prev_live q qLive (by rw [same]; exact linked.ne_nil goneLive)).2
    rwa [same] at forward
  have prev_of_next : links.next gone ≠ nil → links.prev (links.next gone) = gone :=
    fun inner => (linked.next_live gone goneLive inner).2.1
  refine ⟨?_, ?_, ?_, ?_, ?_, ?_⟩
  · intro isLive
    exact linked.nil_dead ((member nil).mp isLive).1
  · intro p isLive inner
    obtain ⟨old, notGone⟩ := (member p).mp isLive
    by_cases before : p = links.prev gone
    · subst before
      rw [nextJoined old] at inner ⊢
      obtain ⟨nextLive, _, nextBucket⟩ := linked.next_live gone goneLive inner
      refine ⟨(member _).mpr ⟨nextLive, linked.next_ne_self goneLive⟩, prevJoined nextLive, ?_⟩
      rw [bucket _ nextLive (linked.next_ne_self goneLive), bucket _ old notGone, nextBucket,
        linked.prev_bucket goneLive (linked.ne_nil old)]
    rw [nextOther p old notGone before] at inner ⊢
    obtain ⟨nextLive, nextBack, nextBucket⟩ := linked.next_live p old inner
    have nextNotGone : links.next p ≠ gone := fun same => before (next_gone p old same).symm
    refine ⟨(member _).mpr ⟨nextLive, nextNotGone⟩, ?_, ?_⟩
    · rw [prevOther _ nextLive nextNotGone ?_, nextBack]
      intro same
      rw [same, prev_of_next (by rw [← same]; exact inner)] at nextBack
      exact notGone nextBack.symm
    · rw [bucket _ nextLive nextNotGone, bucket p old notGone, nextBucket]
  · intro p isLive inner
    obtain ⟨old, notGone⟩ := (member p).mp isLive
    by_cases after : p = links.next gone
    · subst after
      rw [prevJoined old] at inner ⊢
      obtain ⟨prevLive, _⟩ := linked.prev_live gone goneLive inner
      exact ⟨(member _).mpr ⟨prevLive, linked.prev_ne_self goneLive⟩, nextJoined prevLive⟩
    rw [prevOther p old notGone after] at inner ⊢
    obtain ⟨prevLive, prevNext⟩ := linked.prev_live p old inner
    have prevNotGone : links.prev p ≠ gone := fun same => after (prev_gone p old same).symm
    refine ⟨(member _).mpr ⟨prevLive, prevNotGone⟩, ?_⟩
    rw [nextOther _ prevLive prevNotGone ?_, prevNext]
    intro same
    rw [same, (linked.prev_live gone goneLive (by rw [← same]; exact inner)).2] at prevNext
    exact notGone prevNext.symm
  · intro p isLive outer
    obtain ⟨old, notGone⟩ := (member p).mp isLive
    by_cases after : p = links.next gone
    · subst after
      rw [prevJoined old] at outer
      have nextBucket := (linked.next_live gone goneLive (linked.ne_nil old)).2.2
      rw [bucket _ old notGone, nextBucket, headHere outer]
    rw [prevOther p old notGone after] at outer
    have wasFirst := linked.first p old outer
    rw [bucket p old notGone, headOther _ ?_, wasFirst]
    by_cases goneFirst : links.prev gone = nil
    · left
      intro sameBucket
      have goneHead := linked.first gone goneLive goneFirst
      rw [← sameBucket, wasFirst] at goneHead
      exact notGone goneHead
    · exact .inr goneFirst
  · intro b inner
    by_cases here : b = links.bucket gone ∧ links.prev gone = nil
    · obtain ⟨rfl, goneFirst⟩ := here
      rw [headHere goneFirst] at inner ⊢
      obtain ⟨nextLive, _, nextBucket⟩ := linked.next_live gone goneLive inner
      refine ⟨(member _).mpr ⟨nextLive, linked.next_ne_self goneLive⟩, ?_, ?_⟩
      · rw [prevJoined nextLive, goneFirst]
      · rw [bucket _ nextLive (linked.next_ne_self goneLive), nextBucket]
    have elsewhere : b ≠ links.bucket gone ∨ links.prev gone ≠ nil := by
      by_cases sameBucket : b = links.bucket gone
      · exact .inr fun goneFirst => here ⟨sameBucket, goneFirst⟩
      · exact .inl sameBucket
    rw [headOther b elsewhere] at inner ⊢
    obtain ⟨headLive, headPrev, headBucket⟩ := linked.head_live b inner
    have headNotGone : links.head b ≠ gone := by
      intro same
      rcases elsewhere with differs | notFirst
      · rw [same] at headBucket
        exact differs headBucket.symm
      rw [same] at headPrev
      exact notFirst headPrev
    refine ⟨(member _).mpr ⟨headLive, headNotGone⟩, ?_, ?_⟩
    · rw [prevOther _ headLive headNotGone ?_, headPrev]
      intro same
      rw [same, prev_of_next (by rw [← same]; exact inner)] at headPrev
      exact linked.ne_nil goneLive headPrev
    · rw [bucket _ headLive headNotGone, headBucket]
  · obtain ⟨rank, bound, ranked⟩ := linked.ranked
    refine ⟨rank, bound, ?_⟩
    intro p isLive
    obtain ⟨old, notGone⟩ := (member p).mp isLive
    refine ⟨(ranked p old).1, ?_⟩
    intro inner
    by_cases after : p = links.next gone
    · subst after
      have goneNext := prev_of_next (linked.ne_nil old)
      rw [prevJoined old] at inner ⊢
      have step := (ranked _ old).2 (by rw [goneNext]; exact linked.ne_nil goneLive)
      rw [goneNext] at step
      exact ((ranked gone goneLive).2 inner).trans step
    rw [prevOther p old notGone after] at inner ⊢
    exact (ranked p old).2 inner

/-- From any position the chain ends, and it runs through its bucket with rising rank. -/
private theorem chain_from {rank : Pos → Nat} {bound : Nat} (ranked : ∀ p, live p →
      rank p < bound ∧ (links.prev p ≠ nil → rank (links.prev p) < rank p)) (room : Nat) (p : Pos)
    (isLive : live p) (close : bound ≤ rank p + room) :
    ∃ rest, Chain nil links.next (links.next p) rest ∧
      (p :: rest).Pairwise (fun a b => rank a < rank b) ∧
      ∀ q ∈ rest, live q ∧ links.bucket q = links.bucket p := by
  induction room generalizing p with
  | zero =>
    have := (ranked p isLive).1
    omega
  | succ room ih =>
    by_cases last : links.next p = nil
    · exact ⟨[], last, by simp, by simp⟩
    obtain ⟨nextLive, back, sameBucket⟩ := linked.next_live p isLive last
    have rises := (ranked _ nextLive).2 (by rw [back]; exact linked.ne_nil isLive)
    rw [back] at rises
    obtain ⟨rest, chain, sorted, inBucket⟩ := ih (links.next p) nextLive (by omega)
    refine ⟨links.next p :: rest, ⟨rfl, last, chain⟩, ?_, ?_⟩
    · rw [List.pairwise_cons]
      refine ⟨?_, sorted⟩
      intro q qMember
      rcases List.mem_cons.mp qMember with rfl | later
      · exact rises
      · exact rises.trans ((List.pairwise_cons.mp sorted).1 q later)
    intro q qMember
    rcases List.mem_cons.mp qMember with rfl | later
    · exact ⟨nextLive, sameBucket⟩
    · exact ⟨(inBucket q later).1, (inBucket q later).2.trans sameBucket⟩

/-- Every bucket is one finite chain that meets exactly its positions, each once. -/
theorem Linked.bucket_chain (b : Bucket) :
    ∃ members, Chain nil links.next (links.head b) members ∧ members.Nodup ∧
      ∀ p, p ∈ members ↔ live p ∧ links.bucket p = b := by
  obtain ⟨rank, bound, ranked⟩ := linked.ranked
  have all_in : ∀ members, Chain nil links.next (links.head b) members →
      ∀ (height : Nat) (p : Pos), rank p = height → live p → links.bucket p = b →
        p ∈ members := by
    intro members chain height
    induction height using Nat.strong_induction_on with
    | _ height ih =>
      intro p atHeight isLive inBucket
      by_cases outer : links.prev p = nil
      · have isHead := linked.first p isLive outer
        rw [inBucket] at isHead
        rcases members with _ | ⟨q, rest⟩
        · rw [isHead] at chain
          exact (linked.ne_nil isLive chain).elim
        rw [← isHead, chain.1]
        simp
      rcases linked.prev_live p isLive outer with ⟨prevLive, back⟩
      have falls := (ranked p isLive).2 outer
      rw [atHeight] at falls
      have prevIn := ih _ falls (links.prev p) rfl prevLive
        ((linked.prev_bucket isLive outer).trans inBucket)
      have behind := chain_next_mem chain prevIn (by rw [back]; exact linked.ne_nil isLive)
      rwa [back] at behind
  by_cases empty : links.head b = nil
  · refine ⟨[], empty, List.nodup_nil, ?_⟩
    intro p
    constructor
    · simp
    · rintro ⟨isLive, inBucket⟩
      exact all_in [] empty (rank p) p rfl isLive inBucket
  obtain ⟨headLive, headPrev, headBucket⟩ := linked.head_live b empty
  obtain ⟨rest, chain, sorted, inBucket⟩ :=
    chain_from linked ranked bound (links.head b) headLive (by omega)
  have whole : Chain nil links.next (links.head b) (links.head b :: rest) :=
    ⟨rfl, empty, chain⟩
  refine ⟨links.head b :: rest, whole, ?_, ?_⟩
  · exact sorted.imp fun rises same => by rw [same] at rises; exact lt_irrefl _ rises
  intro p
  constructor
  · intro member
    rcases List.mem_cons.mp member with rfl | later
    · exact ⟨headLive, headBucket⟩
    · exact ⟨(inBucket p later).1, (inBucket p later).2.trans headBucket⟩
  · rintro ⟨isLive, sameBucket⟩
    exact all_in _ whole (rank p) p rfl isLive sameBucket

end

end TibiaGame.Library.BucketChains
