import DigitalLedger.Decimals

/-!
# Receipts

`send_receipt` of `receipts.py`: the message a customer is sent about a transaction.
-/

namespace DigitalLedger

/-- What has happened, in words. -/
def receiptAction (txnType : String) (amount : ℚ) : String :=
  let text := commaDecimals amount
  if txnType = "credit" then s!"a credit of ₹{text} has been recorded against your account"
  else s!"a payment of ₹{text} has been received — thank you!"

/-- The line about the balance. -/
def balanceLine (newBalance : ℚ) : String :=
  let text := commaDecimals newBalance
  if newBalance > 0 then s!"Outstanding balance: ₹{text}"
  else "Your account is fully settled. ✅"

/-- The message of `send_receipt`. -/
def receiptMessage (businessName customerName txnType : String) (amount newBalance : ℚ) :
    String :=
  let action := receiptAction txnType amount
  let line := balanceLine newBalance
  s!"Dear {customerName},\n\nFrom {businessName}: {action}.\n{line}\n\n" ++
    "For queries, contact your merchant."

/-- `send_receipt` -/
def sendReceipt (environ : Environ)
    (businessName customerName customerPhone txnType : String) (amount newBalance : ℚ)
    (channel : String) : App Dict :=
  let message := receiptMessage businessName customerName txnType amount newBalance
  if channel = "whatsapp" then sendWhatsapp environ customerPhone message
  else sendSms environ customerPhone message

theorem uses_sendReceipt (environ : Environ)
    (businessName customerName customerPhone txnType : String) (amount newBalance : ℚ)
    (channel : String) :
    Prog.Uses AppCall.IsRequest (sendReceipt environ businessName customerName customerPhone
      txnType amount newBalance channel) := by
  unfold sendReceipt
  dsimp only
  split
  · exact uses_postMessage environ _ _ _
  · exact uses_sendSms environ _ _

end DigitalLedger
