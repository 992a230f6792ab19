import PanelSkin.Files.Asset
import PanelSkin.Graphics.Canvas
import PanelSkin.Proofs.Markup.Nesting
import PanelSkin.Proofs.Markup.RoundTrip
import PanelSkin.Proofs.Markup.Value
import PanelSkin.Proofs.Markup.Remark
import PanelSkin.Proofs.Markup.Lines
import PanelSkin.Proofs.Picture.Recency
import PanelSkin.Proofs.Picture.Transparency
import PanelSkin.Skin.Basic
import PanelSkin.Proofs.Expr.Correspondence
import PanelSkin.Proofs.Expr.Guard
import PanelSkin.Proofs.Expr.Termination
import PanelSkin.Proofs.Expr.Unguarded
import PanelSkin.Proofs.Widget.Correspondence
import PanelSkin.Proofs.Widget.Settling
import PanelSkin.Proofs.Widget.Redraw
import PanelSkin.Proofs.Skin.Events
import PanelSkin.Proofs.Widget.Shape
import PanelSkin.Proofs.Skin.Shape
import PanelSkin.Proofs.Skin.Forest
import PanelSkin.Proofs.Skin.Includes
import PanelSkin.Proofs.Skin.Progress
import PanelSkin.Proofs.Skin.Splicing
import PanelSkin.Proofs.Expr.RoundTrip
import PanelSkin.Proofs.Expr.Comparison
import PanelSkin.Proofs.Expr.LeadingInteger
import PanelSkin.Proofs.Expr.Saturated
import PanelSkin.Proofs.Skin.FontCircles
import PanelSkin.Proofs.Skin.Displays
import PanelSkin.Proofs.Widget.Columns
import PanelSkin.Proofs.Widget.Scrolling
import PanelSkin.Proofs.Widget.Rows
import PanelSkin.Proofs.Widget.Copies
import PanelSkin.Proofs.Widget.OnePass
import PanelSkin.Proofs.Widget.Playing
import PanelSkin.Proofs.Widget.Restarting
import PanelSkin.Proofs.Expr.Freshness
import PanelSkin.Proofs.Widget.RowCount
import PanelSkin.Proofs.Widget.Filling
import PanelSkin.Proofs.Widget.Thumb
import PanelSkin.Proofs.Widget.FewestLines
import PanelSkin.Proofs.Widget.LineLimit
import PanelSkin.Proofs.Widget.TextHeight
import PanelSkin.Proofs.Graphics.Window
import PanelSkin.Proofs.Graphics.Line
import PanelSkin.Proofs.Graphics.Ellipse
import PanelSkin.Proofs.Graphics.Quadrant
import PanelSkin.Proofs.Graphics.Cropping
import PanelSkin.Proofs.Graphics.Sides
import PanelSkin.Proofs.Widget.Rounding
import PanelSkin.Proofs.Widget.Tabs
import PanelSkin.Proofs.Expr.Arithmetic
import PanelSkin.Proofs.Expr.ShortCircuit
import PanelSkin.Proofs.Expr.Concatenation
import PanelSkin.Proofs.Graphics.Color
import PanelSkin.Proofs.Font.Url
import PanelSkin.Proofs.Widget.Geometry
import PanelSkin.Proofs.Picture.Scaling
import PanelSkin.Proofs.Skin.FontSelection
import PanelSkin.Proofs.Skin.FontLoading
import PanelSkin.Proofs.Expr.Segments
import PanelSkin.Proofs.Graphics.Changes
import PanelSkin.Proofs.Markup.Tag
import PanelSkin.Proofs.Expr.Position
