import Kivi.Python.Str
import Kivi.Python.StrLaws
import Kivi.Python.Loop
import Kivi.Html.Entities
import Kivi.Html.EntitiesLaws
import Kivi.Html.Attrs
import Kivi.Html.Parser
import Kivi.Html.ParserLaws
import Kivi.Html.Loops
import Kivi.Html.Markup
import Kivi.Html.Text
import Kivi.Html.Leaves
import Kivi.Html.WriteAttrs
import Kivi.Layout.Font
import Kivi.Layout.Measure
import Kivi.Layout.Engine
import Kivi.Layout.Table
import Kivi.Layout.Wrap
import Kivi.Layout.Inline
import Kivi.Layout.Links
import Kivi.Layout.Height
import Kivi.Layout.Bounds
import Kivi.Layout.Words
import Kivi.Layout.Reading
import Kivi.Layout.Pre
import Kivi.Net.Url
import Kivi.Net.Fetch
import Kivi.Net.FetchLaws
import Kivi.Net.Receive
import Kivi.Browser.Controller
import Kivi.Browser.Steps
import Kivi.Browser.Invariants
import Kivi.Browser.Errors
import Kivi.Browser.Click
import Kivi.Browser.History
import Kivi.Browser.Address
import Kivi.Browser.Editing
import Kivi.Browser.View
import Kivi.Browser.ViewLaws
