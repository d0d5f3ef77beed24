import JobBoard.Model.Statements
import JobBoard.Model.Pricing

/-!
# Invoice numbering and emission

`allocateInvoiceNumber` of invoice-numbering.ts and
`InvoiceEmissionService.emit`. Both run on the caller's transaction; the PDF is
uploaded at once, whatever becomes of the transaction.
-/

set_option autoImplicit false

namespace JobBoard

open Txn Prog

def INVOICE_NUMBER_PADDING : Nat := 4

/-- `String.prototype.padStart`. -/
def padStart (s : String) (length : Nat) (c : Char) : String :=
  String.ofList (List.replicate (length - s.length) c) ++ s

/-- `2026-0001`. -/
def formatInvoiceNumber (year : Int) (n : Nat) : String :=
  toString year ++ "-" ++ padStart (toString n) INVOICE_NUMBER_PADDING '0'

example : formatInvoiceNumber 2026 1 = "2026-0001" ∧
    formatInvoiceNumber 2026 12345 = "2026-12345" := by decide

/-- `INSERT INTO invoice_sequences ... ON CONFLICT DO NOTHING`. -/
def ensureInvoiceSequence (year : Int) : M Unit :=
  write fun db => if (db.invoiceSequences.get? year).isSome then [] else [.insertInvoiceSequence year]

/-- `SELECT ... FOR UPDATE` of the year's row. -/
def lockInvoiceSequence (year : Int) : M InvoiceSequence :=
  query fun db =>
    match db.invoiceSequences.get? year with
    | none => .error (.entityNotFound "InvoiceSequence")
    | some row => .ok ([.lockInvoiceSequence year], row)

def allocateInvoiceNumber (year : Int) : M String := do
  ensureInvoiceSequence year
  let row ← lockInvoiceSequence year
  -- `repo.save(row)`: the re-read returns the locked row
  let _ ← select fun db => db.invoiceSequences.get? year
  write fun _ => [.setLastNumber year (row.lastNumber + 1)]
  return formatInvoiceNumber year (row.lastNumber + 1)

/-- `generateInvoicePdf`; `generation` tells the documents of two calls apart. -/
def generateInvoicePdf (generation : Id) (params : InvoicePdfParams) : InvoicePdf :=
  ⟨params, generation⟩

def pdfStorageKey (companyId : Id) (invoiceNumber : String) : String :=
  "invoices/" ++ toString companyId ++ "/" ++ invoiceNumber ++ ".pdf"

/-- `ObjectStorage.upload`. -/
def ObjectStorage.upload (o : StoredObject) : M Unit := outside fun _ => [.upload o]

/-- The constraint that the invoice `i` would violate. -/
def Db.invoiceViolation (db : Db) (i : Invoice) : Option String :=
  if (db.invoices.get? i.id).isSome then some "PK_invoices"
  else if db.invoices.rows.any (·.invoiceNumber == i.invoiceNumber) then
    some INVOICE_NUMBER_UNIQUE_CONSTRAINT
  else if db.invoices.rows.any (·.stripeInvoiceId == i.stripeInvoiceId) then
    some INVOICE_STRIPE_EVENT_UNIQUE_CONSTRAINT
  else none

structure EmitParams where
  subscription : Subscription
  company : Company
  stripeEventId : String
  amountTTCOverride : Option Int

namespace InvoiceEmissionService

def amounts (config : Config) (params : EmitParams) : Except Error VatBreakdown :=
  match params.amountTTCOverride with
  | some amountTTC => .ok (computeVatFromTtc amountTTC)
  | none => (resolveMonthlyPriceHtInCentimes params.subscription.plan config).map computeVat

def pdfParams (config : Config) (params : EmitParams) (vat : VatBreakdown) (issuedAt : Time)
    (invoiceNumber : String) : InvoicePdfParams where
  invoiceNumber := invoiceNumber
  issuedAt := issuedAt
  issuerName := config.issuerName
  issuerIce := config.issuerIce
  issuerAddress := config.issuerAddress
  companyName := params.company.name
  companyIce := params.company.ice.getD ""
  planLabel := params.subscription.plan.toString
  amountHT := vat.amountHT
  vatRate := VAT_RATE_PERCENT
  vatAmount := vat.vatAmount
  amountTTC := vat.amountTTC
  currency := "MAD"

def invoiceData (uuid : Id) (params : EmitParams) (vat : VatBreakdown) (issuedAt : Time)
    (invoiceNumber : String) : Invoice where
  id := uuid
  subscriptionId := params.subscription.id
  companyId := params.company.id
  invoiceNumber := invoiceNumber
  amountHT := vat.amountHT
  vatRate := VAT_RATE_PERCENT
  vatAmount := vat.vatAmount
  amountTTC := vat.amountTTC
  currency := "MAD"
  companyIce := params.company.ice.getD ""
  issuedAt := issuedAt
  pdfStorageKey := pdfStorageKey params.company.id invoiceNumber
  stripeInvoiceId := params.stripeEventId

/-- `uuid` is the id the database gives the row, and stands for the call. -/
def emit (config : Config) (uuid : Id) (params : EmitParams) : M Invoice := do
  let vat ← ofExcept (amounts config params)
  let issuedAt ← now
  let invoiceNumber ← allocateInvoiceNumber (getFullYear issuedAt)
  ObjectStorage.upload
    { key := pdfStorageKey params.company.id invoiceNumber
      body := generateInvoicePdf uuid (pdfParams config params vat issuedAt invoiceNumber)
      contentType := "application/pdf" }
  let invoice := invoiceData uuid params vat issuedAt invoiceNumber
  insertUnique (fun db => db.invoiceViolation invoice) (.insertInvoice invoice) invoice

end InvoiceEmissionService

end JobBoard
