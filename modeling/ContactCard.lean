import ContactCard.Base64
import ContactCard.Card
import ContactCard.Codec.Basic
import ContactCard.Codec.Binary
import ContactCard.Codec.Note
import ContactCard.Codec.Registry
import ContactCard.Codec.Text
import ContactCard.DataType
import ContactCard.DataUri
import ContactCard.Error
import ContactCard.Fault
import ContactCard.Html.Node
import ContactCard.Html.PropertyNode
import ContactCard.Html.Reader
import ContactCard.Html.Reference
import ContactCard.Html.Token
import ContactCard.JCardValue
import ContactCard.MediaType
import ContactCard.NamedValue
import ContactCard.Number.Double
import ContactCard.Number.Integer
import ContactCard.Number.Shortest
import ContactCard.OrderedMap
import ContactCard.Parameters
import ContactCard.Property
import ContactCard.Settings.Basic
import ContactCard.Settings.Definition
import ContactCard.Text.Blank
import ContactCard.Text.Case
import ContactCard.Text.CaseTable
import ContactCard.Text.CodeRange
import ContactCard.Text.Digit
import ContactCard.Text.Escape
import ContactCard.Text.Printable
import ContactCard.Text.Quoted
import ContactCard.Text.Split
import ContactCard.Url.Basic
import ContactCard.Url.Host
import ContactCard.Value
import ContactCard.Version
import ContactCard.XCard.Document
import ContactCard.XCard.ParametersElement
import ContactCard.XCard.PropertyElement
import ContactCard.Xml.Element
import ContactCard.Xml.Markup
import ContactCard.Xml.Writer
import ContactCard.Proofs.Base64
import ContactCard.Proofs.DataUri
import ContactCard.Proofs.Url
import ContactCard.Proofs.Text.Blank
import ContactCard.Proofs.Text.Case
import ContactCard.Proofs.Text.Escape
import ContactCard.Proofs.Parameters
import ContactCard.Proofs.Parameters.Invariant
import ContactCard.Proofs.Parameters.Runs
import ContactCard.Proofs.Codec.Binary
import ContactCard.Proofs.Codec.Exclusive
import ContactCard.Proofs.Codec.Conversion
import ContactCard.Proofs.Codec.Link
import ContactCard.Proofs.Codec.Registry
import ContactCard.Proofs.Codec.Output
import ContactCard.Proofs.Codec.PlainText
import ContactCard.Proofs.Codec.Text
import ContactCard.Proofs.Codec.Leniency
import ContactCard.Proofs.Codec.Object
import ContactCard.Proofs.Codec.Projection
import ContactCard.Proofs.Settings.Reading
import ContactCard.Proofs.Xml.Name
import ContactCard.Proofs.Xml.Layout
import ContactCard.Proofs.Xml.Markup
import ContactCard.Proofs.Xml.Document
import ContactCard.Proofs.Xml.Prefix
import ContactCard.Proofs.Xml.Drafting
import ContactCard.Proofs.Xml.NewPrefix
import ContactCard.Proofs.Xml.Renumbering
import ContactCard.Proofs.Xml.Misnaming
import ContactCard.Proofs.Xml.Scope
import ContactCard.Proofs.Xml.Namespace
import ContactCard.Proofs.Xml.StartTag
import ContactCard.Proofs.Xml.DefaultNamespace
import ContactCard.Proofs.Xml.Fidelity
import ContactCard.Proofs.Xml.RoundTrip
import ContactCard.Proofs.Xml.Outline
import ContactCard.Proofs.Xml.Tidy
import ContactCard.Proofs.Xml.Noncharacters
import ContactCard.Proofs.Xml.Given
import ContactCard.Proofs.Xml.Indentation
import ContactCard.Proofs.Xml.LostNamespace
import ContactCard.Proofs.Xml.TextRoundTrip
import ContactCard.Proofs.Xml.Canonical
import ContactCard.Proofs.Xml.Legibility
import ContactCard.Proofs.Xml.Cleaning
import ContactCard.Proofs.Xml.PrefixTable
import ContactCard.Proofs.XCard.Grouping
import ContactCard.Proofs.XCard.Adding
import ContactCard.Proofs.XCard.Accounting
import ContactCard.Proofs.XCard.PropertyElement
import ContactCard.Proofs.XCard.Writing
import ContactCard.Proofs.XCard.Document
import ContactCard.Proofs.XCard.Refusal
import ContactCard.Proofs.XCard.Composition
import ContactCard.Proofs.XCard.Independence
import ContactCard.Proofs.XCard.ProductId
import ContactCard.Proofs.XCard.Membership
import ContactCard.Proofs.XCard.Writability
import ContactCard.Proofs.XCard.Legibility
import ContactCard.Proofs.Settings.Keeping
import ContactCard.Proofs.Settings.Transparency
import ContactCard.Proofs.Settings.Runs
import ContactCard.Proofs.Settings.Sharing
import ContactCard.Proofs.Settings.Registration
import ContactCard.Proofs.Settings.Mapping
import ContactCard.Proofs.Card
import ContactCard.Proofs.Card.Replacement
import ContactCard.Proofs.Base64.Spelling
import ContactCard.Proofs.XCard.Extension
import ContactCard.Proofs.XCard.Parameters
import ContactCard.Proofs.Base64.Bits
import ContactCard.Proofs.Codec.Line
import ContactCard.Proofs.Settings.Consulting
import ContactCard.Proofs.Settings.Assignment
import ContactCard.Proofs.Settings.Copying
import ContactCard.Proofs.Parameters.Accessors
import ContactCard.Proofs.Parameters.Order
import ContactCard.Proofs.Parameters.Removal
import ContactCard.Proofs.NamedValue
import ContactCard.Proofs.MediaType
import ContactCard.Proofs.Number.Integer
