import Mathlib.Data.List.Induction
import JobBoard.Billing.InvoiceNumbers
import JobBoard.Lib.Sound
import JobBoard.Services.System

/-!
# Legal invoice numbering

Any number of transactions that emit one invoice each, interleaved. Whoever has
locked the row of a year relies on nobody else moving that row, or uploading
under the number that comes next for the year (`SequenceRely`). So an emission
commits the next number of its year, with its own PDF in the storage
(`Emitted`), and the numbers of a year have no gap and no duplicate
(`emissions_numbered`).
-/

set_option autoImplicit false

namespace JobBoard

open Txn Prog

namespace Db

/-- The last number allocated for the year. -/
def lastNumber (d : Db) (year : Int) : Nat :=
  match d.invoiceSequences.get? year with
  | none => 0
  | some row => row.lastNumber

def nextNumber (d : Db) (year : Int) : String := formatInvoiceNumber year (d.lastNumber year + 1)

/-- The invoices allocated for the year, in the order they were committed. -/
def invoicesOf (d : Db) (year : Int) : List Invoice :=
  d.invoices.rows.filter fun i => getFullYear i.issuedAt = year

end Db

/-! ## Emissions -/

inductive EmissionOp where
  | clock (ms : Nat)
  | emit (params : EmitParams)

/-- A transaction that emits one invoice. -/
def emission (config : Config) (uuid : Id) : EmissionOp → M (Option Invoice)
  | .clock ms => do
    write fun _ => [.tick ms]
    return none
  | .emit params =>
    transaction (InvoiceEmissionService.emit config uuid params) .throw fun invoice =>
      return some invoice

def emissions (config : Config) : System Db Write Key Error (Option Invoice) EmissionOp :=
  ⟨store, emission config, isFault⟩

/-- The object that the emission uploads. -/
def invoiceObject (config : Config) (uuid : Id) (params : EmitParams) (vat : VatBreakdown)
    (issuedAt : Time) (invoiceNumber : String) : StoredObject where
  key := pdfStorageKey params.company.id invoiceNumber
  body := generateInvoicePdf uuid
    (InvoiceEmissionService.pdfParams config params vat issuedAt invoiceNumber)
  contentType := "application/pdf"

/-! ## Rely -/

structure SequenceRely (h : List Key) (d d' : Db) : Prop where
  row : ∀ y, .sequence y ∈ h → d'.invoiceSequences.get? y = d.invoiceSequences.get? y
  pdf : ∀ y c, .sequence y ∈ h →
    d'.object? (pdfStorageKey c (d.nextNumber y)) = d.object? (pdfStorageKey c (d.nextNumber y))
  invoice : ∀ id, .row "invoices" id ∈ h → d'.invoices.get? id = d.invoices.get? id

namespace SequenceRely

variable {h k : List Key} {a b c d d' : Db}

theorem of_eq (hs : d'.invoiceSequences = d.invoiceSequences) (ho : d'.storage = d.storage)
    (hi : d'.invoices = d.invoices) : SequenceRely h d d' :=
  ⟨fun y _ => by rw [hs], fun y c _ => by rw [Db.object?, ho, Db.object?], fun id _ => by rw [hi]⟩

theorem lastNumber (hr : SequenceRely h d d') {y : Int} (hy : .sequence y ∈ h) :
    d'.lastNumber y = d.lastNumber y := by
  unfold Db.lastNumber
  rw [hr.row y hy]

theorem nextNumber (hr : SequenceRely h d d') {y : Int} (hy : .sequence y ∈ h) :
    d'.nextNumber y = d.nextNumber y := by
  unfold Db.nextNumber
  rw [hr.lastNumber hy]

theorem trans (hab : SequenceRely h a b) (hbc : SequenceRely h b c) : SequenceRely h a c where
  row := fun y hy => (hbc.row y hy).trans (hab.row y hy)
  pdf := by
    intro y id hy
    have := hbc.pdf y id hy
    rw [hab.nextNumber hy] at this
    exact this.trans (hab.pdf y id hy)
  invoice := fun id hid => (hbc.invoice id hid).trans (hab.invoice id hid)

theorem mono (hr : SequenceRely (h ++ k) d d') : SequenceRely h d d' :=
  ⟨fun y hy => hr.row y (List.mem_append_left _ hy),
    fun y c hy => hr.pdf y c (List.mem_append_left _ hy),
    fun id hid => hr.invoice id (List.mem_append_left _ hid)⟩

theorem weaken (hr : SequenceRely h d d') : SequenceRely [] d d' := mono (h := []) hr

end SequenceRely

/-! ## Allocation -/

/-- What `ensureInvoiceSequence` writes. -/
def ensureWrites (d : Db) (y : Int) : List Write :=
  if (d.invoiceSequences.get? y).isSome then [] else [.insertInvoiceSequence y]

def allocationWrites (d : Db) (y : Int) : List Write :=
  ensureWrites d y ++ [.lockInvoiceSequence y, .setLastNumber y (d.lastNumber y + 1)]

theorem SequenceRely.ensureWrites {h : List Key} {d d' : Db} {y : Int} (hr : SequenceRely h d d')
    (hy : .sequence y ∈ h) : JobBoard.ensureWrites d' y = JobBoard.ensureWrites d y := by
  unfold JobBoard.ensureWrites
  rw [hr.row y hy]

theorem SequenceRely.allocationWrites {h : List Key} {d d' : Db} {y : Int}
    (hr : SequenceRely h d d') (hy : .sequence y ∈ h) :
    JobBoard.allocationWrites d' y = JobBoard.allocationWrites d y := by
  unfold JobBoard.allocationWrites
  rw [hr.ensureWrites hy, hr.lastNumber hy]

/-- The row that `SELECT ... FOR UPDATE` locks holds the last number committed for the
year, whether it was there before or this transaction has inserted it. -/
theorem locked_row {d₁ d₂ : Db} {y : Int} {row : InvoiceSequence}
    (hr : SequenceRely (store.locks (ensureWrites d₁ y)) d₁ d₂)
    (hrow : (store.applyAll d₂ (ensureWrites d₁ y)).invoiceSequences.get? y = some row) :
    ensureWrites d₁ y = ensureWrites d₂ y ∧ row.lastNumber = d₂.lastNumber y := by
  cases h₁ : d₁.invoiceSequences.get? y with
  | some r =>
    have he : ensureWrites d₁ y = [] := by simp [ensureWrites, h₁]
    rw [he, Store.applyAll_nil] at hrow
    rw [he]
    exact ⟨by simp [ensureWrites, hrow], by simp [Db.lastNumber, hrow]⟩
  | none =>
    have he : ensureWrites d₁ y = [.insertInvoiceSequence y] := by simp [ensureWrites, h₁]
    rw [he] at hr hrow
    have h₂ : d₂.invoiceSequences.get? y = none := by
      rw [hr.row y (by simp [Store.locks, store, Write.keys]), h₁]
    have hins : (d₂.invoiceSequences.insert ⟨y, 0⟩).get? y = some row := hrow
    have := Table.get?_insert_self (r := (⟨y, 0⟩ : InvoiceSequence)) h₂
    rw [this] at hins
    cases hins
    rw [he]
    exact ⟨by simp [ensureWrites, h₂], by simp [Db.lastNumber, h₂]⟩

theorem allocateInvoiceNumber_plain (y : Int) :
    (allocateInvoiceNumber y).Plain (fun _ => True) (fun _ => False) fun _ => True := by
  unfold allocateInvoiceNumber ensureInvoiceSequence lockInvoiceSequence
  refine Plain.bind (plain_write fun _ => trivial) fun _ => Plain.bind
    (plain_query trivial (fun _ _ _ => trivial) fun _ _ _ => trivial) fun row => ?_
  refine Plain.bind (plain_select trivial _) fun _ => ?_
  exact Plain.bind (plain_write fun _ => trivial) fun _ => plain_ret _

/-- An allocation draws the next number of the year, as it is when it ends. -/
theorem allocateInvoiceNumber_yields {y : Int} {d : Db} {t : List Write × Db} {number : String}
    (h : (allocateInvoiceNumber y).Yields store SequenceRely ([], d) t number) :
    t.1 = allocationWrites t.2 y ∧ number = t.2.nextNumber y := by
  simp only [allocateInvoiceNumber, ensureInvoiceSequence, lockInvoiceSequence, yields_bind,
    yields_write, yields_query, yields_select, pure_eq, yields_ret] at h
  obtain ⟨_, _, ⟨d₁, -, rfl⟩, _, row, ⟨d₂, ws, hd₂, hlock, rfl⟩, _, _, ⟨d₃, hd₃, rfl, -⟩, _, _,
    ⟨d₄, hd₄, rfl⟩, rfl, rfl⟩ := h
  split at hlock
  · cases hlock
  · next r hr =>
    cases hlock
    have hd₂ : SequenceRely (store.locks (ensureWrites d₁ y)) d₁ d₂ := hd₂
    obtain ⟨he, hlast⟩ := locked_row hd₂ hr
    have hd : SequenceRely _ d₂ d₄ := SequenceRely.trans hd₃ hd₄
    have hy : Key.sequence y ∈
        store.locks (ensureWrites d₁ y ++ [.lockInvoiceSequence y]) := by
      simp [Store.locks, store, Write.keys]
    refine ⟨?_, ?_⟩
    · show ensureWrites d₁ y ++ [.lockInvoiceSequence y] ++ [.setLastNumber y (row.lastNumber + 1)] =
        allocationWrites d₄ y
      rw [hd.allocationWrites hy, he, hlast]
      simp [allocationWrites]
    · show formatInvoiceNumber y (row.lastNumber + 1) = d₄.nextNumber y
      rw [hd.nextNumber hy, hlast]
      rfl

theorem allocationWrites_invoices (d d' : Db) (y : Int) :
    (store.applyAll d' (allocationWrites d y)).invoices = d'.invoices := by
  unfold allocationWrites ensureWrites
  split <;> rfl

theorem sequence_mem_locks (d : Db) (y : Int) : .sequence y ∈ store.locks (allocationWrites d y) := by
  simp [allocationWrites, Store.locks, store, Write.keys]

/-! ## One emission -/

/-- What an emission uploads while it holds the row of the year. -/
def Uploaded (config : Config) (uuid : Id) (params : EmitParams) (held : List Key) (d : Db)
    (ws : List Write) : Prop :=
  ∃ vat issuedAt, .sequence (getFullYear issuedAt) ∈ held ∧
    ws = [.upload (invoiceObject config uuid params vat issuedAt
      (d.nextNumber (getFullYear issuedAt)))]

/-- What an emission commits: the next number of the year of issue, for an
invoice whose PDF is in the storage. -/
def Emitted (config : Config) (uuid : Id) (params : EmitParams) (d : Db) (ws : List Write) : Prop :=
  ∃ vat issuedAt number, number = d.nextNumber (getFullYear issuedAt) ∧
    ws = allocationWrites d (getFullYear issuedAt) ++
      [.insertInvoice (InvoiceEmissionService.invoiceData uuid params vat issuedAt number)] ∧
    d.invoices.get? uuid = none ∧
    d.object? (pdfStorageKey params.company.id number) =
      some (invoiceObject config uuid params vat issuedAt number)

theorem invoiceViolation_none {d : Db} {i : Invoice} (h : d.invoiceViolation i = none) :
    d.invoices.get? i.id = none := by
  unfold Db.invoiceViolation at h
  split at h
  · cases h
  · next hn => simpa using hn

/-- The others leave alone what an emission is about to commit. -/
theorem Emitted.stable {config : Config} {uuid : Id} {params : EmitParams} {d d' : Db}
    {ws : List Write} (h : Emitted config uuid params d ws) (hr : SequenceRely (store.locks ws) d d') :
    Emitted config uuid params d' ws := by
  obtain ⟨vat, issuedAt, number, rfl, rfl, hid, hobj⟩ := h
  rw [Store.locks_append] at hr
  have hy := sequence_mem_locks d (getFullYear issuedAt)
  have hr' := hr.mono
  refine ⟨vat, issuedAt, _, (hr'.nextNumber hy).symm, ?_, ?_, ?_⟩
  · rw [hr'.allocationWrites hy]
  · rw [hr.invoice uuid ?_, hid]
    simp [Store.locks, store, Write.keys, InvoiceEmissionService.invoiceData]
  · rw [hr'.pdf _ _ hy, hobj]

theorem object?_upload (d : Db) (o : StoredObject) :
    (store.applyAll d [.upload o]).object? o.key = some o := by
  simp [store, Write.apply, Db.object?]

section

variable {config : Config} {uuid : Id} {params : EmitParams} {L : Rules Db Write Key Error}
  {G : Bool → List Key → Db → List Write → Prop} {err : List (List Write) → Error → Db → Prop}
  {Q : Local Db Write Error → Db → Invoice → Prop} {H : Error → Db → Prop}
  {c : List (List Write)} {d : Db}

/-- The insert, once the PDF is in the storage. -/
theorem insertInvoice_wp (hL : L.rely = SequenceRely) (hH : ∀ e d', H e d')
    (hQ : ∀ d' ws invoice, Emitted config uuid params d' ws → Q ⟨some (ws, H), c⟩ d' invoice)
    {vat : VatBreakdown} {issuedAt : Time} {number : String} {invoice : Invoice}
    (hnumber : number = d.nextNumber (getFullYear issuedAt))
    (hobj : d.object? (pdfStorageKey params.company.id number) =
      some (invoiceObject config uuid params vat issuedAt number))
    (hinvoice : invoice = InvoiceEmissionService.invoiceData uuid params vat issuedAt number) :
    wp store L G err
      (insertUnique (fun db => db.invoiceViolation invoice) (.insertInvoice invoice) invoice) Q
      ⟨some (allocationWrites d (getFullYear issuedAt), H), c⟩ d := by
  subst hnumber hinvoice
  have hy := sequence_mem_locks d (getFullYear issuedAt)
  refine wp_query fun d' hd' => ⟨fun e _ => hH e d', fun e _ => hH e d', fun ws a hok => ?_⟩
  rw [hL] at hd'
  split at hok
  · cases hok
  · next hnone =>
    cases hok
    have hid := invoiceViolation_none hnone
    rw [allocationWrites_invoices] at hid
    refine hQ d' _ _ ⟨vat, issuedAt, _, (hd'.nextNumber hy).symm, ?_, hid, ?_⟩
    · rw [hd'.allocationWrites hy]
    · rw [hd'.pdf _ _ hy, hobj]

/-- The upload, under the number that still comes next, and the insert. -/
theorem publish_wp (hL : L.rely = SequenceRely) (hH : ∀ e d', H e d')
    (hG : ∀ k d' ws, Uploaded config uuid params k d' ws → G false k d' ws)
    (hQ : ∀ d' ws invoice, Emitted config uuid params d' ws → Q ⟨some (ws, H), c⟩ d' invoice)
    (vat : VatBreakdown) (issuedAt : Time) {number : String} {invoice : Invoice}
    (hnumber : number = d.nextNumber (getFullYear issuedAt))
    (hinvoice : invoice = InvoiceEmissionService.invoiceData uuid params vat issuedAt number) :
    wp store L G err
      (ObjectStorage.upload (invoiceObject config uuid params vat issuedAt number) >>= fun _ =>
        insertUnique (fun db => db.invoiceViolation invoice) (.insertInvoice invoice) invoice)
      Q ⟨some (allocationWrites d (getFullYear issuedAt), H), c⟩ d := by
  have hy := sequence_mem_locks d (getFullYear issuedAt)
  rw [wp_bind]
  intro d₁ hd₁
  rw [hL] at hd₁
  have hnext : number = d₁.nextNumber (getFullYear issuedAt) := by rw [hnumber, hd₁.nextNumber hy]
  refine ⟨fun e _ => hH e d₁, fun _ => hG _ _ _ ⟨vat, issuedAt, hy, by rw [hnext]⟩, ?_⟩
  rw [← hd₁.allocationWrites hy]
  exact insertInvoice_wp (d := store.applyAll d₁ [.upload _]) hL hH hQ hnext (object?_upload d₁ _)
    hinvoice

/-- An emission fails, or is about to commit what `Emitted` says. -/
theorem emit_wp (hL : L.rely = SequenceRely) (hH : ∀ e d', H e d')
    (hG : ∀ k d' ws, Uploaded config uuid params k d' ws → G false k d' ws)
    (hQ : ∀ d' ws invoice, Emitted config uuid params d' ws → Q ⟨some (ws, H), c⟩ d' invoice) :
    wp store L G err (InvoiceEmissionService.emit config uuid params) Q ⟨some ([], H), c⟩ d := by
  unfold InvoiceEmissionService.emit
  rw [wp_bind]
  cases InvoiceEmissionService.amounts config params with
  | error e => exact hH e d
  | ok vat =>
    show wp store L G err (now >>= _) Q _ d
    rw [wp_bind]
    intro d₁ _
    refine ⟨fun e _ => hH e d₁, fun _ => ?_⟩
    show wp store L G err (allocateInvoiceNumber (getFullYear d₁.now) >>= _) Q ⟨some ([], H), c⟩ d₁
    rw [wp_bind]
    refine (allocateInvoiceNumber_plain _).wp (fun e d' _ => hH e d') (fun _ _ => trivial)
      (fun _ _ _ h => h.elim) fun t number ht => ?_
    rw [hL] at ht
    obtain ⟨hws, hnumber⟩ := allocateInvoiceNumber_yields ht
    rw [hws]
    exact publish_wp hL hH hG hQ vat d₁.now hnumber rfl

end

/-! ## The numbers of a year -/

/-- The sequence of each year has counted its invoices, whose numbers are the
first ones of the year. -/
def Db.Numbered (d : Db) : Prop := ∀ y, (d.invoicesOf y).map (·.invoiceNumber) =
  (List.range (d.lastNumber y)).map fun k => formatInvoiceNumber y (k + 1)

theorem Db.Numbered.number {d : Db} (h : d.Numbered) {i : Invoice} (hi : i ∈ d.invoices.rows) :
    ∃ k, k < d.lastNumber (getFullYear i.issuedAt) ∧
      i.invoiceNumber = formatInvoiceNumber (getFullYear i.issuedAt) (k + 1) := by
  have hmem : i.invoiceNumber ∈
      (d.invoicesOf (getFullYear i.issuedAt)).map (·.invoiceNumber) :=
    List.mem_map_of_mem (List.mem_filter.2 ⟨hi, by simp⟩)
  rw [h] at hmem
  obtain ⟨k, hk, he⟩ := List.mem_map.1 hmem
  exact ⟨k, List.mem_range.1 hk, he.symm⟩

section

variable {config : Config} {uuid : Id} {params : EmitParams} {d : Db} {ws : List Write}

/-- The sequences after an allocation. -/
theorem allocation_get? (d : Db) (y z : Int) :
    (store.applyAll d (allocationWrites d y)).invoiceSequences.get? z =
      if z = y then some ⟨y, d.lastNumber y + 1⟩ else d.invoiceSequences.get? z := by
  unfold allocationWrites ensureWrites
  cases hg : d.invoiceSequences.get? y with
  | some row =>
    obtain ⟨year, n⟩ := row
    cases Table.key_of_get? hg
    simp only [Option.isSome_some, if_true, List.nil_append, store, Store.applyAll_cons,
      Write.apply, Store.applyAll_nil, Table.get?_modify]
    split
    · next hz =>
      rw [hz, hg]
      rfl
    · rfl
  | none =>
    have hins := Table.get?_insert (r := (⟨y, 0⟩ : InvoiceSequence)) (k := z) hg
    simp only [Option.isSome_none, Bool.false_eq_true, if_false, List.cons_append, List.nil_append,
      store, Store.applyAll_cons, Write.apply, Store.applyAll_nil, Table.get?_modify, hins]
    split
    · next hz => simp [hz]
    · next hz => simp [Ne.symm hz]

/-- An emission seen from the database it reaches. -/
theorem Emitted.apply (h : Emitted config uuid params d ws) :
    ∃ vat issuedAt number invoice,
      invoice = InvoiceEmissionService.invoiceData uuid params vat issuedAt number ∧
      number = d.nextNumber (getFullYear issuedAt) ∧
      d.object? invoice.pdfStorageKey =
        some (invoiceObject config uuid params vat issuedAt number) ∧
      (store.applyAll d ws).invoices.rows = d.invoices.rows ++ [invoice] ∧
      (store.applyAll d ws).storage = d.storage ∧
      (∀ z, (store.applyAll d ws).invoiceSequences.get? z =
        if z = getFullYear issuedAt then
          some ⟨getFullYear issuedAt, d.lastNumber (getFullYear issuedAt) + 1⟩
        else d.invoiceSequences.get? z) ∧
      .sequence (getFullYear issuedAt) ∈ store.locks ws ∧
      .row "invoices" uuid ∈ store.locks ws := by
  obtain ⟨vat, issuedAt, number, hnumber, rfl, hid, hobj⟩ := h
  have hinv := allocationWrites_invoices d d (getFullYear issuedAt)
  refine ⟨vat, issuedAt, number, _, rfl, hnumber, hobj, ?_, ?_, ?_, ?_, ?_⟩
  · rw [Store.applyAll_append]
    show (Table.insert (store.applyAll d _).invoices _).rows = _
    rw [hinv]
    exact Table.insert_rows hid
  · rw [Store.applyAll_append]
    show (store.applyAll d (allocationWrites d _)).storage = _
    unfold allocationWrites ensureWrites
    split <;> rfl
  · intro z
    rw [Store.applyAll_append, ← allocation_get?]
    rfl
  · rw [Store.locks_append]
    exact List.mem_append_left _ (sequence_mem_locks d _)
  · simp [Store.locks, store, Write.keys, InvoiceEmissionService.invoiceData]

theorem Emitted.numbered (h : Emitted config uuid params d ws) (hd : d.Numbered) :
    (store.applyAll d ws).Numbered := by
  obtain ⟨vat, issuedAt, number, invoice, rfl, rfl, -, hrows, -, hseq, -, -⟩ := h.apply
  intro y
  unfold Db.invoicesOf Db.lastNumber
  rw [hrows, List.filter_append, List.map_append, hseq]
  have hdy := hd y
  unfold Db.invoicesOf at hdy
  rw [hdy]
  by_cases hy : getFullYear issuedAt = y
  · subst hy
    simp [InvoiceEmissionService.invoiceData, Db.nextNumber, List.range_succ]
  · simp only [InvoiceEmissionService.invoiceData, if_neg (Ne.symm hy)]
    rw [List.filter_cons_of_neg (by simpa using hy)]
    simp [Db.lastNumber]

theorem Emitted.rely (h : Emitted config uuid params d ws) {ks : List Key}
    (hk : ∀ k ∈ ks, k ∉ store.locks ws) : SequenceRely ks d (store.applyAll d ws) := by
  obtain ⟨vat, issuedAt, number, invoice, rfl, -, -, hrows, hstorage, hseq, hy, hid⟩ := h.apply
  refine ⟨fun y hyk => ?_, fun y c _ => ?_, fun id hidk => ?_⟩
  · rw [hseq, if_neg]
    rintro rfl
    exact hk _ hyk hy
  · rw [Db.object?, hstorage, Db.object?]
  · have hne : uuid ≠ id := by
      rintro rfl
      exact hk _ hidk hid
    simp [Table.get?, hrows, List.find?_append, InvoiceEmissionService.invoiceData, hne]

theorem Uploaded.object {held : List Key} (h : Uploaded config uuid params held d ws) {y : Int}
    {n : Nat} {c : Id}
    (hn : .sequence y ∉ held ∨ n ≠ d.lastNumber y + 1) :
    (store.applyAll d ws).object? (pdfStorageKey c (formatInvoiceNumber y n)) =
      d.object? (pdfStorageKey c (formatInvoiceNumber y n)) := by
  obtain ⟨vat, issuedAt, hheld, rfl⟩ := h
  show List.find? _ (_ :: d.storage) = _
  rw [List.find?_cons_of_neg]
  · rfl
  · intro hkey
    obtain ⟨-, rfl, rfl⟩ := pdfStorageKey_inj (beq_iff_eq.1 hkey)
    rcases hn with hn | hn
    · exact hn hheld
    · exact hn rfl

theorem Uploaded.rely {held : List Key} (h : Uploaded config uuid params held d ws)
    {ks : List Key} (hk : ∀ k ∈ ks, k ∉ held) : SequenceRely ks d (store.applyAll d ws) := by
  refine ⟨fun y _ => ?_, fun y c hy => h.object (.inl (hk _ hy)), fun id _ => ?_⟩
  · obtain ⟨vat, issuedAt, -, rfl⟩ := h
    rfl
  · obtain ⟨vat, issuedAt, -, rfl⟩ := h
    rfl

end

/-! ## All emissions -/

def emissionSpec (config : Config) (i : Nat) (op : EmissionOp) :
    Spec Db Write Key Error (Option Invoice) where
  guar := fun viaTx held d ws =>
    match op with
    | .emit params =>
      if viaTx then Emitted config i params d ws else Uploaded config i params held d ws
    | .clock _ => viaTx = false ∧ ∃ ms, ws = [.tick ms]
  err := fun _ _ _ => True
  post := fun _ _ _ => True

def emissionRuns : Assume Db Write Key EmissionOp := ⟨.all, SequenceRely, fun _ _ => True⟩

theorem emissions_sound (config : Config) :
    Sound (emissions config) emissionRuns Db.Numbered (emissionSpec config) where
  refl := .of_eq rfl rfl rfl
  trans := .trans
  weaken := .weaken
  settled := fun _ => trivial
  post := fun _ _ => trivial
  err := fun _ _ => trivial
  step := by
    intro i op b held d ws hI h
    cases op with
    | clock ms =>
      obtain ⟨-, ms', rfl⟩ := h
      exact ⟨hI, trivial, fun _ ks _ _ => .of_eq rfl rfl rfl⟩
    | emit params =>
      cases b with
      | true => exact ⟨Emitted.numbered h hI, trivial, fun _ ks hk _ => Emitted.rely h hk⟩
      | false =>
        refine ⟨?_, trivial, fun _ ks _ hk => Uploaded.rely h hk⟩
        obtain ⟨vat, issuedAt, -, rfl⟩ := h
        exact hI
  prog := by
    intro i op d _ _
    cases op with
    | clock ms =>
      show wp store _ _ _ (write _ >>= _) _ _ d
      rw [wp_bind]
      intro d' _
      exact ⟨fun _ _ => trivial, fun _ => ⟨fun _ => ⟨rfl, ms, rfl⟩, rfl, trivial⟩⟩
    | emit params =>
      show wp store _ _ _ (transaction _ _ _) _ _ d
      refine ⟨rfl, fun d₁ _ => ⟨fun _ _ => trivial, ?_⟩⟩
      rw [wp_bind]
      refine emit_wp rfl (fun _ _ => trivial) (fun _ _ _ h => h) fun d₂ ws invoice h d₃ hd₃ => ?_
      exact ⟨fun _ _ => trivial, h.stable hd₃, rfl, trivial⟩

/-! ## Runs -/

abbrev EmissionState := State Db Write Error (Option Invoice) EmissionOp

/-- The PDF in the storage is the one that the call which inserted the invoice
has generated for it. -/
def Printed (config : Config) (ops : List EmissionOp) (d : Db) (invoice : Invoice) : Prop :=
  ∃ params vat, ops[invoice.id]? = some (.emit params) ∧
    invoice = InvoiceEmissionService.invoiceData invoice.id params vat invoice.issuedAt
      invoice.invoiceNumber ∧
    d.object? invoice.pdfStorageKey = some (invoiceObject config invoice.id params vat
      invoice.issuedAt invoice.invoiceNumber)

structure LegalNumbering (config : Config) (s : EmissionState) : Prop where
  /-- One invoice for each transaction that has committed. -/
  committed : s.db.invoices.rows.map (·.id) = (s.log.filter (·.viaTx)).map (·.call)
  numbers : ∀ y, (s.db.invoicesOf y).map (·.invoiceNumber) =
    (List.range (s.db.invoicesOf y).length).map fun k => formatInvoiceNumber y (k + 1)
  distinct : ∀ y z m n, formatInvoiceNumber y m = formatInvoiceNumber z n → y = z ∧ m = n
  pdf : ∀ invoice ∈ s.db.invoices.rows, Printed config s.ops s.db invoice

section

variable {config : Config} {d₀ : Db} {s : EmissionState}

theorem Printed.mono {ops : List EmissionOp} {d d' : Db} {invoice : Invoice}
    (h : Printed config ops d invoice)
    (ho : d'.object? invoice.pdfStorageKey = d.object? invoice.pdfStorageKey) :
    Printed config ops d' invoice := by
  obtain ⟨params, vat, hop, he, hobj⟩ := h
  exact ⟨params, vat, hop, he, ho.trans hobj⟩

/-- What a group of the log does to the invoices and their PDFs. -/
theorem emission_group_printed {ops : List EmissionOp} {d : Db} {g : Txn.Group Write} {op : EmissionOp}
    {held : List Key} (hop : ops[g.call]? = some op) (hd : d.Numbered)
    (hg : (emissionSpec config g.call op).guar g.viaTx held d g.writes)
    (hp : ∀ invoice ∈ d.invoices.rows, Printed config ops d invoice) :
    (store.applyAll d g.writes).invoices.rows.map (·.id) =
      d.invoices.rows.map (·.id) ++ ([g].filter (·.viaTx)).map (·.call) ∧
    ∀ invoice ∈ (store.applyAll d g.writes).invoices.rows,
      Printed config ops (store.applyAll d g.writes) invoice := by
  obtain ⟨i, b, ws⟩ := g
  cases op with
  | clock ms =>
    obtain ⟨rfl, ms', rfl⟩ := hg
    refine ⟨by simp [store, Write.apply], hp⟩
  | emit params =>
    cases b with
    | true =>
      obtain ⟨vat, issuedAt, number, invoice, rfl, -, hobj, hrows, hstorage, -⟩ := Emitted.apply hg
      refine ⟨by simp [hrows, InvoiceEmissionService.invoiceData], fun invoice hi => ?_⟩
      have ho : ∀ key, (store.applyAll d ws).object? key = d.object? key := by
        intro key
        rw [Db.object?, hstorage, Db.object?]
      rw [hrows, List.mem_append, List.mem_singleton] at hi
      rcases hi with hi | rfl
      · exact (hp invoice hi).mono (ho _)
      · exact ⟨params, vat, hop, rfl, (ho _).trans hobj⟩
    | false =>
      have hup : Uploaded config i params held d ws := hg
      have hinv : (store.applyAll d ws).invoices = d.invoices := by
        obtain ⟨vat, issuedAt, -, rfl⟩ := hup
        rfl
      refine ⟨by simp [hinv], fun invoice hi => ?_⟩
      rw [hinv] at hi
      refine (hp invoice hi).mono ?_
      -- the upload goes under the next number, the invoice has one of the numbers before
      obtain ⟨k, hk, hnumber⟩ := hd.number hi
      obtain ⟨params', vat, -, he, -⟩ := hp invoice hi
      have hkey : invoice.pdfStorageKey = pdfStorageKey params'.company.id
          (formatInvoiceNumber (getFullYear invoice.issuedAt) (k + 1)) := by
        rw [← hnumber]
        exact congrArg Invoice.pdfStorageKey he
      rw [hkey]
      exact hup.object (.inr (by omega))

theorem emissions_printed (hs : (emissions config).Reach .all d₀ s)
    (hinvoices : d₀.invoices = ∅) (hI : d₀.Numbered) {l r : List (Txn.Group Write)}
    (hlog : s.log = l ++ r) :
    (replay store d₀ l).invoices.rows.map (·.id) = (l.filter (·.viaTx)).map (·.call) ∧
    ∀ invoice ∈ (replay store d₀ l).invoices.rows,
      Printed config s.ops (replay store d₀ l) invoice := by
  induction l using List.reverseRecOn generalizing r with
  | nil => simp [hinvoices]
  | append_singleton l g ih =>
    have hlog' : s.log = l ++ g :: r := by simp [hlog]
    obtain ⟨hids, hp⟩ := ih hlog'
    obtain ⟨op, hop, hnum, held, hg⟩ := ((emissions_sound config).good hI hs).log hlog'
    obtain ⟨hids', hp'⟩ := emission_group_printed hop hnum hg hp
    rw [replay_snoc, List.filter_append, List.map_append, ← hids]
    exact ⟨hids', hp'⟩

end

theorem numbered_of_empty {d : Db} (hinvoices : d.invoices = ∅) (hseq : d.invoiceSequences = ∅) :
    d.Numbered := by
  intro y
  simp [Db.invoicesOf, Db.lastNumber, hinvoices, hseq, Table.get?]

/-- Emissions from empty tables, interleaved and aborted at any statement,
number the invoices of each year without gap or duplicate. -/
theorem emissions_numbered (config : Config) (d₀ : Db) (s : EmissionState)
    (hinvoices : d₀.invoices = ∅) (hseq : d₀.invoiceSequences = ∅)
    (hs : (emissions config).Reach .all d₀ s) : LegalNumbering config s := by
  have hI := numbered_of_empty hinvoices hseq
  have hgood := (emissions_sound config).good hI hs
  obtain ⟨hids, hp⟩ := emissions_printed hs hinvoices hI (l := s.log) (r := []) (by simp)
  have hreplay : s.db = replay store d₀ s.log := hgood.replay
  rw [← hreplay] at hids hp
  refine ⟨hids, fun y => ?_, fun y z m n => formatInvoiceNumber_inj, hp⟩
  have hy := hgood.inv y
  have hlength := congrArg List.length hy
  simp only [List.length_map, List.length_range] at hlength
  rw [hlength]
  exact hy

/-- An emission for the company of `paidCompany`. -/
def renewalParams (stripeEventId : String) : EmitParams where
  subscription :=
    { id := 50
      companyId := 100
      plan := .starter
      status := .active
      externalSubscriptionId := some "sub_1"
      startsAt := 0
      endsAt := none
      contactQuota := 15
      contactsUsed := 0
      pastDueSince := none
      cancelAtPeriodEnd := false
      createdAt := 0 }
  company := ⟨100, "Atlas", some "001234567000089", none⟩
  stripeEventId := stripeEventId
  amountTTCOverride := none

/-- The first emission of the year uploads its PDF and is aborted at its commit while
the second one waits for the row of the year; the second and the third get the first two
numbers. -/
theorem emissions_numbered_abort : ∃ s : EmissionState,
    s.db.invoices.rows.map (fun i => (i.id, i.invoiceNumber)) = [(1, "1970-0001"), (2, "1970-0002")] ∧
    LegalNumbering .default s := by
  have hrun : ((emissions .default).runLabels .all (State.init Db.empty)
      ([.spawn (.emit (renewalParams "evt_1")), .spawn (.emit (renewalParams "evt_2")),
        .spawn (.emit (renewalParams "evt_3")), .step 1, .step 1] ++
        List.replicate 8 (.step 0) ++ [.fault 0 .unavailable] ++ List.replicate 7 (.step 1) ++
        List.replicate 9 (.step 2))).map
      (fun s => s.db.invoices.rows.map fun i => (i.id, i.invoiceNumber)) =
      some [(1, "1970-0001"), (2, "1970-0002")] := by
    decide
  obtain ⟨s, hs, hst⟩ := System.reach_of_run hrun
  exact ⟨s, hst, emissions_numbered .default Db.empty s rfl rfl hs⟩

end JobBoard
