import ChatShow.Antlib.SqueueThreads
import Mathlib.Data.List.Nodup

/-! # What the threads do to the queue

The queue is a chain of nodes, and `vals` has for each of them the values that have been given a place
there, also where the place has not been filled. -/

namespace ChatShow.Antlib.SqueueThreads

open ChatShow.Antlib.SharedQueue (Node SQUEUE_NODE_SIZE)
open ChatShow.Lib.Runs

/-- The thread has a place, and has not been counted. -/
def PushPc.Holds : PushPc → Prop
  | .store .. | .get | .link _ | .move | .count => True
  | _ => False

/-- The thread has the last place of a node, and has not moved the tail on. -/
def PushPc.Links : PushPc → Prop
  | .store _ _ i => i = SQUEUE_NODE_SIZE - 1
  | .get | .link _ | .move => True
  | _ => False

variable {ι : Type*}

/-- The nodes from the first one to the tail. -/
structure Nodes (s : State ι) (chain : List ℕ) : Prop where
  head : s.squeue.head = chain.head?
  tail : s.squeue.tail = chain.getLast?
  ne : chain ≠ []
  nodup : chain.Nodup
  links : ∀ i a b, chain[i]? = some a → chain[i + 1]? = some b → (s.squeue.node a).next = some b
  used : ∀ n ∈ chain, n ∈ s.used
  /-- no pop has come to a node behind the first one -/
  fresh : ∀ n ∈ chain, s.squeue.head ≠ some n → (s.squeue.node n).tail = 0

/-- The places that have been given. -/
structure Places (s : State ι) (chain : List ℕ) (vals : ℕ → List ℕ) : Prop where
  length : ∀ n ∈ chain, (vals n).length = min (s.squeue.node n).head SQUEUE_NODE_SIZE
  full : ∀ n ∈ chain, s.squeue.tail ≠ some n → SQUEUE_NODE_SIZE ≤ (s.squeue.node n).head
  filled : ∀ n ∈ chain, ∀ i v, (s.squeue.node n).queue i = some v → (vals n)[i]? = some v
  /-- a place that has been given and not filled is that of a thread which will fill it -/
  awaited : ∀ n ∈ chain, ∀ i v, (s.squeue.node n).queue i = none → (vals n)[i]? = some v →
    ∃ t, s.push t = .store v n i
  store : ∀ t v n i, s.push t = .store v n i →
    n ∈ chain ∧ (vals n)[i]? = some v ∧ (s.squeue.node n).queue i = none
  apart : ∀ t t' v v' n i, s.push t = .store v n i → s.push t' = .store v' n i → t = t'
  /-- a node that has been read as the tail and left since has no place to give -/
  add : ∀ t v n, s.push t = .add v n → n ∈ chain ∨ SQUEUE_NODE_SIZE ≤ (s.squeue.node n).head

/-- The thread that links the next node: there is one just when the tail is full. -/
structure Linking (s : State ι) (chain : List ℕ) : Prop where
  full : ∀ t n, (s.push t).Links → s.squeue.tail = some n → SQUEUE_NODE_SIZE ≤ (s.squeue.node n).head
  exists_of_full : ∀ n, s.squeue.tail = some n → SQUEUE_NODE_SIZE ≤ (s.squeue.node n).head →
    ∃ t, (s.push t).Links
  one : ∀ t t', (s.push t).Links → (s.push t').Links → t = t'
  last : ∀ t v n, s.push t = .store v n (SQUEUE_NODE_SIZE - 1) → s.squeue.tail = some n
  link : ∀ t m, s.push t = .link m → m ∈ s.used ∧ m ∉ chain ∧ s.squeue.node m = {}
  move : ∀ t, s.push t = .move → ∀ n, s.squeue.tail = some n → ∃ m,
    (s.squeue.node n).next = some m ∧ m ∈ s.used ∧ m ∉ chain ∧ s.squeue.node m = {}

/-- The first places of a node have been filled. -/
def Filled (s : State ι) (n k : ℕ) : Prop := ∀ i < k, (s.squeue.node n).queue i ≠ none

/-- What has been popped of the first node `h`, where `done` are the values of the nodes before it. -/
def Popping (s : State ι) (chain : List ℕ) (vals : ℕ → List ℕ) (done : List ℕ) (h : ℕ) : Prop :=
  let j := (s.squeue.node h).tail
  match s.pop with
  | .out => j < SQUEUE_NODE_SIZE ∧ Filled s h j ∧ s.popped = done ++ (vals h).take j
  | .add => j < SQUEUE_NODE_SIZE ∧ Filled s h j ∧ s.popped = done ++ (vals h).take j
  | .wait n i => n = h ∧ j = i + 1 ∧ i < (vals h).length ∧ Filled s h i ∧
    s.popped = done ++ (vals h).take i
  | .leave n v => n = h ∧ (vals h).length = SQUEUE_NODE_SIZE ∧ Filled s h SQUEUE_NODE_SIZE ∧
    s.popped ++ [v] = done ++ vals h
  | .free n v => j = 0 ∧ s.popped ++ [v] = done ∧ n ∉ chain ∧ n ∈ s.used ∧
    SQUEUE_NODE_SIZE ≤ (s.squeue.node n).head
  | .count v => j < SQUEUE_NODE_SIZE ∧ Filled s h j ∧ s.popped ++ [v] = done ++ (vals h).take j

/-- What the numbers say. -/
structure Counts (s : State ι) (H : Finset ι) : Prop where
  holds : ∀ t, t ∈ H ↔ (s.push t).Holds
  taken : s.taken.length = s.pushed + H.card
  count : s.squeue.count.toInt + s.popped.length = s.pushed
  /-- a pop is of a value that has been counted -/
  pop : s.popped.length ≤ s.pushed ∧ (s.pop ≠ .out → s.popped.length < s.pushed)

/-- The state of the queue. -/
structure Queued (s : State ι) (chain : List ℕ) (vals : ℕ → List ℕ) (done : List ℕ) : Prop where
  nodes : Nodes s chain
  places : Places s chain vals
  linking : Linking s chain
  popping : ∀ h, s.squeue.head = some h → Popping s chain vals done h
  counts : ∃ H, Counts s H
  taken : s.taken.map Prod.snd = done ++ chain.flatMap vals

def Inv (s : State ι) : Prop := ∃ chain vals done, Queued s chain vals done

variable {s s' : State ι} {chain : List ℕ} {vals vals' : ℕ → List ℕ} {done : List ℕ}

/-! ### What a step leaves as it is -/

theorem getLast?_ne {l : List ℕ} (h : l.Nodup) {i a b : ℕ} (ha : l[i]? = some a)
    (hb : l[i + 1]? = some b) : l.getLast? ≠ some a := by
  intro hlast
  have hlt : i + 1 < l.length := (List.getElem?_eq_some_iff.mp hb).1
  rw [List.getLast?_eq_getElem?, ← ha] at hlast
  have := (List.getElem?_inj (by omega) h).mp hlast
  omega

theorem Nodes.mem_of_tail (h : Nodes s chain) {n : ℕ} (hn : s.squeue.tail = some n) : n ∈ chain :=
  List.mem_of_getLast? (h.tail.symm.trans hn)

theorem Nodes.mem_of_head (h : Nodes s chain) {n : ℕ} (hn : s.squeue.head = some n) : n ∈ chain :=
  List.mem_of_mem_head? (h.head.symm.trans hn)

theorem Nodes.frame (h : Nodes s chain) (hhead : s'.squeue.head = s.squeue.head)
    (htail : s'.squeue.tail = s.squeue.tail)
    (hnext : ∀ n ∈ chain, s.squeue.tail ≠ some n → (s'.squeue.node n).next = (s.squeue.node n).next)
    (hfresh : ∀ n ∈ chain, s.squeue.head ≠ some n →
      (s'.squeue.node n).tail = (s.squeue.node n).tail)
    (hused : ∀ n ∈ chain, n ∈ s.used → n ∈ s'.used) : Nodes s' chain where
  head := hhead.trans h.head
  tail := htail.trans h.tail
  ne := h.ne
  nodup := h.nodup
  links i a b ha hb := by
    have hlast : s.squeue.tail ≠ some a := by
      rw [h.tail]
      exact getLast?_ne h.nodup ha hb
    rw [hnext a (List.mem_of_getElem? ha) hlast]
    exact h.links i a b ha hb
  used n hn := hused n hn (h.used n hn)
  fresh n hn hne := by
    rw [hhead] at hne
    rw [hfresh n hn hne, h.fresh n hn hne]

/-- The nodes that a thread may still get a place in, or may ask for one. -/
def Seen (s : State ι) (chain : List ℕ) (n : ℕ) : Prop := n ∈ chain ∨ ∃ t, (s.push t).Reads n

theorem Seen.of_add {t : ι} {v n : ℕ} (h : s.push t = .add v n) : Seen s chain n :=
  Or.inr ⟨t, by rw [h]; exact rfl⟩

/-- Where the places of the nodes and the threads that fill them are as they were. -/
theorem Places.frame (h : Places s chain vals) (htail : s'.squeue.tail = s.squeue.tail)
    (hhead : ∀ n, Seen s chain n → min (s'.squeue.node n).head SQUEUE_NODE_SIZE =
      min (s.squeue.node n).head SQUEUE_NODE_SIZE)
    (hqueue : ∀ n ∈ chain, (s'.squeue.node n).queue = (s.squeue.node n).queue)
    (hstore : ∀ t v n i, s'.push t = .store v n i ↔ s.push t = .store v n i)
    (hadd : ∀ t v n, s'.push t = .add v n → s.push t = .add v n ∨ n ∈ chain) :
    Places s' chain vals where
  length n hn := by rw [hhead n (Or.inl hn), h.length n hn]
  full n hn hne := by
    rw [htail] at hne
    have hle := h.full n hn hne
    have heq := hhead n (Or.inl hn)
    omega
  filled n hn i v hq := by
    rw [hqueue n hn] at hq
    exact h.filled n hn i v hq
  awaited n hn i v hq hv := by
    rw [hqueue n hn] at hq
    obtain ⟨t, ht⟩ := h.awaited n hn i v hq hv
    exact ⟨t, (hstore t v n i).mpr ht⟩
  store t v n i ht := by
    obtain ⟨hn, hv, hq⟩ := h.store t v n i ((hstore t v n i).mp ht)
    exact ⟨hn, hv, (congrFun (hqueue n hn) i).trans hq⟩
  apart t t' v v' n i ht ht' :=
    h.apart t t' v v' n i ((hstore t v n i).mp ht) ((hstore t' v' n i).mp ht')
  add t v n ht := by
    rcases hadd t v n ht with ht | hn
    · have heq := hhead n (.of_add ht)
      rcases h.add t v n ht with hn | hle
      · exact Or.inl hn
      · exact Or.inr (by omega)
    · exact Or.inl hn

/-- Where the tail and the node behind it, and the thread that links it, are as they were. -/
theorem Linking.frame (h : Linking s chain) (htail : s'.squeue.tail = s.squeue.tail)
    (hhead : ∀ n, s.squeue.tail = some n →
      (SQUEUE_NODE_SIZE ≤ (s'.squeue.node n).head ↔ SQUEUE_NODE_SIZE ≤ (s.squeue.node n).head))
    (hnext : ∀ n, s.squeue.tail = some n → (s'.squeue.node n).next = (s.squeue.node n).next)
    (hnode : ∀ m ∈ s.used, m ∉ chain → s.squeue.node m = {} → m ∈ s'.used ∧ s'.squeue.node m = {})
    (hlinks : ∀ t, (s'.push t).Links ↔ (s.push t).Links)
    (hsame : ∀ t, (s.push t).Links → s'.push t = s.push t ∨ s'.push t = .get) :
    Linking s' chain where
  full t n ht hn := by
    rw [htail] at hn
    exact (hhead n hn).mpr (h.full t n ((hlinks t).mp ht) hn)
  exists_of_full n hn hle := by
    rw [htail] at hn
    obtain ⟨t, ht⟩ := h.exists_of_full n hn ((hhead n hn).mp hle)
    exact ⟨t, (hlinks t).mpr ht⟩
  one t t' ht ht' := h.one t t' ((hlinks t).mp ht) ((hlinks t').mp ht')
  last t v n ht := by
    have hs := hsame t ((hlinks t).mp (by rw [ht]; exact rfl))
    rw [ht] at hs
    exact htail.trans (h.last t v n (hs.resolve_right nofun).symm)
  link t m ht := by
    have hs := hsame t ((hlinks t).mp (by rw [ht]; exact trivial))
    rw [ht] at hs
    obtain ⟨hu, hc, hm⟩ := h.link t m (hs.resolve_right nofun).symm
    exact ⟨(hnode m hu hc hm).1, hc, (hnode m hu hc hm).2⟩
  move t ht n hn := by
    have hs := hsame t ((hlinks t).mp (by rw [ht]; exact trivial))
    rw [ht] at hs
    rw [htail] at hn
    obtain ⟨m, hm, hu, hc, he⟩ := h.move t (hs.resolve_right nofun).symm n hn
    exact ⟨m, (hnext n hn).trans hm, (hnode m hu hc he).1, hc, (hnode m hu hc he).2⟩

/-- What the steps of the pushes leave to the pop: they add places and fill them. -/
theorem Popping.frame {chain' : List ℕ} {h : ℕ} (hp : Popping s chain vals done h)
    (hpop : s'.pop = s.pop) (hpopped : s'.popped = s.popped)
    (htail : (s'.squeue.node h).tail = (s.squeue.node h).tail)
    (hqueue : ∀ i, (s'.squeue.node h).queue i = none → (s.squeue.node h).queue i = none)
    (hfilled : ∀ k, Filled s h k → k ≤ (vals h).length)
    (hlen : (vals h).length = SQUEUE_NODE_SIZE → vals' h = vals h) (hvals : vals h <+: vals' h)
    (hfree : ∀ n, n ∉ chain → n ∈ s.used → SQUEUE_NODE_SIZE ≤ (s.squeue.node n).head →
      n ∉ chain' ∧ n ∈ s'.used ∧ SQUEUE_NODE_SIZE ≤ (s'.squeue.node n).head) :
    Popping s' chain' vals' done h := by
  have hfill : ∀ k, Filled s h k → Filled s' h k := fun k hk i hi hn => hk i hi (hqueue i hn)
  have htake : ∀ k, Filled s h k → (vals' h).take k = (vals h).take k := by
    intro k hk
    obtain ⟨l, hl⟩ := hvals
    rw [← hl, List.take_append_of_le_length (hfilled k hk)]
  unfold Popping at hp ⊢
  rw [hpop, hpopped, htail]
  dsimp only at hp ⊢
  split at hp
  · obtain ⟨hj, hf, he⟩ := hp
    exact ⟨hj, hfill _ hf, by rw [he, htake _ hf]⟩
  · obtain ⟨hj, hf, he⟩ := hp
    exact ⟨hj, hfill _ hf, by rw [he, htake _ hf]⟩
  · obtain ⟨hn, hj, hi, hf, he⟩ := hp
    exact ⟨hn, hj, hi.trans_le hvals.length_le, hfill _ hf, by rw [he, htake _ hf]⟩
  · obtain ⟨hn, hl, hf, he⟩ := hp
    exact ⟨hn, by rw [hlen hl, hl], hfill _ hf, by rw [hlen hl, he]⟩
  · obtain ⟨hj, he, hc, hu, hle⟩ := hp
    exact ⟨hj, he, hfree _ hc hu hle⟩
  · obtain ⟨hj, hf, he⟩ := hp
    exact ⟨hj, hfill _ hf, by rw [he, htake _ hf]⟩

theorem Places.filled_le (h : Places s chain vals) {n : ℕ} (hn : n ∈ chain) {k : ℕ}
    (hk : Filled s n k) : k ≤ (vals n).length := by
  by_contra hlt
  cases hq : (s.squeue.node n).queue (vals n).length with
  | none => exact hk _ (by omega) hq
  | some v =>
    have := (List.getElem?_eq_some_iff.mp (h.filled n hn _ v hq)).1
    omega

theorem Nodes.exists_tail (h : Nodes s chain) : ∃ n, s.squeue.tail = some n :=
  Option.ne_none_iff_exists'.mp fun hnone =>
    h.ne (List.getLast?_eq_none_iff.mp (h.tail.symm.trans hnone))

/-- Where a step neither gives a place nor fills one, and leaves the chain as it is. -/
theorem Queued.frame (h : Queued s chain vals done) (hnodes : Nodes s' chain)
    (hplaces : Places s' chain vals) (hlinking : Linking s' chain) (hcounts : ∃ H, Counts s' H)
    (hhead : s'.squeue.head = s.squeue.head) (hpop : s'.pop = s.pop) (hpopped : s'.popped = s.popped)
    (htaken : s'.taken = s.taken)
    (htail : ∀ n ∈ chain, (s'.squeue.node n).tail = (s.squeue.node n).tail)
    (hqueue : ∀ n ∈ chain, ∀ i, (s'.squeue.node n).queue i = none → (s.squeue.node n).queue i = none)
    (hfree : ∀ n, n ∉ chain → n ∈ s.used → SQUEUE_NODE_SIZE ≤ (s.squeue.node n).head →
      n ∈ s'.used ∧ SQUEUE_NODE_SIZE ≤ (s'.squeue.node n).head) : Queued s' chain vals done where
  nodes := hnodes
  places := hplaces
  linking := hlinking
  popping f hf := by
    rw [hhead] at hf
    have hmem := h.nodes.mem_of_head hf
    exact (h.popping f hf).frame hpop hpopped (htail f hmem) (hqueue f hmem)
      (fun k hk => h.places.filled_le hmem hk) (fun _ => rfl) (List.prefix_refl _)
      fun n hn hu hle => ⟨hn, hfree n hn hu hle⟩
  counts := hcounts
  taken := by rw [htaken, h.taken]

end ChatShow.Antlib.SqueueThreads
