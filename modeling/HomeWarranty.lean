import HomeWarranty.Lib.Interleave
import HomeWarranty.Lib.MarkLog
import HomeWarranty.Lib.FormQuery
import HomeWarranty.Lib.Raise
import HomeWarranty.Billing.SilentPostTheorems
import HomeWarranty.Billing.FallbackTheorems
import HomeWarranty.Billing.MerchantLabel
import HomeWarranty.Nmi.GwApi
import HomeWarranty.Nmi.Booking
import HomeWarranty.Nmi.SaleQuery
import HomeWarranty.Nmi.Operations
import HomeWarranty.Nmi.RefundTheorems
import HomeWarranty.Nmi.References
import HomeWarranty.Site.Billing
import HomeWarranty.Site.BillingTheorems
import HomeWarranty.Site.Purchase
import HomeWarranty.Site.PurchaseTheorems
import HomeWarranty.Affiliate.Partner
import HomeWarranty.Affiliate.Attribution
import HomeWarranty.Claims.RepairTheorems
import HomeWarranty.Claims.Payment
import HomeWarranty.Faxes.Expunge
import HomeWarranty.Faxes.Lock
import HomeWarranty.Faxes.Assignment
import HomeWarranty.Admin.Session
import HomeWarranty.Admin.Contract
import HomeWarranty.Admin.CustomerEdit
import HomeWarranty.Affiliate.Tokens
import HomeWarranty.Affiliate.Isolation
import HomeWarranty.Leads.Uniqueness
import HomeWarranty.Admin.LoginEmail
import HomeWarranty.Admin.MonthFee
import HomeWarranty.Admin.Relationship
import HomeWarranty.Admin.CardPrivacy
import HomeWarranty.Admin.Status
import HomeWarranty.Admin.StatusSlug
import HomeWarranty.Admin.NumberSearch
import HomeWarranty.Admin.AdvancedSearch
import HomeWarranty.Ruby.SqlText
import HomeWarranty.Admin.SqlFilter
import HomeWarranty.Claims.Settlement
import HomeWarranty.Claims.Invoice
import HomeWarranty.Addresses.Geocode
import HomeWarranty.Quotes.Coverages
import HomeWarranty.Quotes.Total
import HomeWarranty.Admin.Paginator
import HomeWarranty.Admin.WebAccount
import HomeWarranty.Admin.Commission
import HomeWarranty.Ruby.Regex
import HomeWarranty.Site.ExpDate
import HomeWarranty.Output.Safe
import HomeWarranty.Lib.JsLiteral
import HomeWarranty.Output.SafeJson
import HomeWarranty.Site.ExpDateEdit
import HomeWarranty.Output.English
import HomeWarranty.Output.Phone
import HomeWarranty.Lib.Placeholders
import HomeWarranty.Output.Content
import HomeWarranty.Output.EmailTemplate
import HomeWarranty.Faxes.Sender
import HomeWarranty.Lib.Luhn
import HomeWarranty.Site.CardCheck
import HomeWarranty.Lib.Chunks
import HomeWarranty.Admin.NoteText
import HomeWarranty.Admin.ContractorSearch
import HomeWarranty.Admin.ContractRate
import HomeWarranty.Billing.Schedule
import HomeWarranty.Quotes.DiscountEntry
import HomeWarranty.Lib.Checks
import HomeWarranty.Leads.Diagnosis
import HomeWarranty.Lib.Loop
import HomeWarranty.Quotes.PackageCoverages
import HomeWarranty.Lib.Regexp
import HomeWarranty.Site.IntroForm
import HomeWarranty.Lib.Csv
import HomeWarranty.Reports.Export
import HomeWarranty.Reports.Listing
import HomeWarranty.Lib.Base64
import HomeWarranty.Faxes.SourcePassword
import HomeWarranty.Admin.PageLinks
import HomeWarranty.Claims.StatusFilter
import HomeWarranty.Quotes.DiscountUse
import HomeWarranty.Leads.Duplicates
import HomeWarranty.Admin.Renewals
import HomeWarranty.Faxes.Inbox
import HomeWarranty.Quotes.Catalogue
import HomeWarranty.Admin.CellTable
import HomeWarranty.Faxes.SourceTable
