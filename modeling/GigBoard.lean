import GigBoard.Account.Profile
import GigBoard.Account.Registration
import GigBoard.Account.Summary
import GigBoard.Account.TextPatch
import GigBoard.Account.User
import GigBoard.Action
import GigBoard.Call
import GigBoard.Delivery.Milestone
import GigBoard.Delivery.Progress
import GigBoard.Digest.Hmac
import GigBoard.Digest.Sha256
import GigBoard.Failure
import GigBoard.Hiring.Applying
import GigBoard.Hiring.Job
import GigBoard.Hiring.Posting
import GigBoard.Hiring.Search
import GigBoard.Hiring.Views
import GigBoard.Http.Cors
import GigBoard.Http.Input
import GigBoard.Http.MediaType
import GigBoard.Http.Message
import GigBoard.Http.Resource
import GigBoard.Json
import GigBoard.Json.Decoder
import GigBoard.Json.Reader
import GigBoard.Json.Scanner
import GigBoard.Lifecycle
import GigBoard.Listing
import GigBoard.Main
import GigBoard.Maintenance
import GigBoard.Messaging.Conversation
import GigBoard.Messaging.Inbox
import GigBoard.Messaging.Message
import GigBoard.Number.Binary64
import GigBoard.Number.DecimalText
import GigBoard.Number.Shortest
import GigBoard.Page
import GigBoard.Problem
import GigBoard.Reputation.Review
import GigBoard.Reputation.Reviewing
import GigBoard.Reputation.Views
import GigBoard.Server
import GigBoard.Settings
import GigBoard.Store
import GigBoard.Store.Account
import GigBoard.Store.Hiring
import GigBoard.Store.Social
import GigBoard.Text.Base64Url
import GigBoard.Text.Blank
import GigBoard.Text.Form
import GigBoard.Text.Hex
import GigBoard.Text.Integer
import GigBoard.Text.LowerCase
import GigBoard.Text.LowerCase.Table
import GigBoard.Text.Pattern
import GigBoard.Text.Percent
import GigBoard.Text.Split
import GigBoard.Text.Stored
import GigBoard.Text.Utf8
import GigBoard.Timestamp
import GigBoard.Token
import GigBoard.Token.Claims
import GigBoard.Token.Header
import GigBoard.Url
import GigBoard.Url.Address
import GigBoard.Url.Host
import GigBoard.Url.Punycode
import GigBoard.Uuid
import GigBoard.Proofs.Actions
import GigBoard.Proofs.Answers
import GigBoard.Proofs.Applying
import GigBoard.Proofs.Assignment
import GigBoard.Proofs.Atomicity
import GigBoard.Proofs.Authentication
import GigBoard.Proofs.Blindness
import GigBoard.Proofs.Confinement
import GigBoard.Proofs.Constraints
import GigBoard.Proofs.Contests
import GigBoard.Proofs.ConversationNames
import GigBoard.Proofs.Conversations
import GigBoard.Proofs.Cutting
import GigBoard.Proofs.Deciding
import GigBoard.Proofs.Differences
import GigBoard.Proofs.Disconnection
import GigBoard.Proofs.Effect
import GigBoard.Proofs.Encodings
import GigBoard.Proofs.Entries
import GigBoard.Proofs.Faults
import GigBoard.Proofs.Folding
import GigBoard.Proofs.Forgeries
import GigBoard.Proofs.Forms
import GigBoard.Proofs.Gains
import GigBoard.Proofs.Grouping
import GigBoard.Proofs.History
import GigBoard.Proofs.HostNames
import GigBoard.Proofs.Inbox
import GigBoard.Proofs.Integers
import GigBoard.Proofs.Integrity
import GigBoard.Proofs.InternalErrors
import GigBoard.Proofs.JobUpdates
import GigBoard.Proofs.JobViews
import GigBoard.Proofs.Lifetimes
import GigBoard.Proofs.Lists
import GigBoard.Proofs.LowerCase
import GigBoard.Proofs.Members
import GigBoard.Proofs.Milestones
import GigBoard.Proofs.Minting
import GigBoard.Proofs.Moving
import GigBoard.Proofs.Numerals
import GigBoard.Proofs.Opening
import GigBoard.Proofs.Order
import GigBoard.Proofs.Origins
import GigBoard.Proofs.Outcome
import GigBoard.Proofs.PageNumbers
import GigBoard.Proofs.Pages
import GigBoard.Proofs.Paging
import GigBoard.Proofs.Patterns
import GigBoard.Proofs.Posting
import GigBoard.Proofs.Precedence
import GigBoard.Proofs.Privacy
import GigBoard.Proofs.ProfileUpdates
import GigBoard.Proofs.Profiles
import GigBoard.Proofs.ReadBack
import GigBoard.Proofs.Redaction
import GigBoard.Proofs.Removal
import GigBoard.Proofs.Requests
import GigBoard.Proofs.Reviewing
import GigBoard.Proofs.Reviews
import GigBoard.Proofs.Rows
import GigBoard.Proofs.Searching
import GigBoard.Proofs.Sending
import GigBoard.Proofs.Service
import GigBoard.Proofs.StartUp
import GigBoard.Proofs.Statements
import GigBoard.Proofs.StorableTexts
import GigBoard.Proofs.Subjects
import GigBoard.Proofs.Submissions
import GigBoard.Proofs.Tokens
import GigBoard.Proofs.Trimming
import GigBoard.Proofs.Unread
import GigBoard.Proofs.Utf8
import GigBoard.Proofs.Wallets
